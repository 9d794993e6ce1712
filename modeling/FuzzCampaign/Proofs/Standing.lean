import FuzzCampaign.Proofs.Hub

/-!
# Standings

Who is to have which place, and how often each connection had its turn, is said by the occurrences
alone. One more occurrence changes little of it.

* `Standing`, `Standing.Offers`: places, their claimants and turns;
* `Advances`, **`advances_ofList`**: what an occurrence changes.
-/

namespace FuzzCampaign

/-- What is said of places and connections: the indexes of the places, who is to have each, and how
often each connection has had its turn. -/
structure Standing where
  indexes : List UInt64
  claimant : Nat → Option Nat
  turns : Nat → Nat

/-- What the occurrences say. -/
def Standing.ofList (inputs : Nat → List UInt8) (es : List Occurrence) : Standing :=
  ⟨(Docket.ofList es).indexes, (Docket.ofList es).claimant? inputs, fun c => turnsIn c es⟩

/-- A place is free for a connection that greets with the index of the place before anyone else. -/
def Standing.Offers (S : Standing) (inputs : Nat → List UInt8) (c p : Nat) (i : UInt64) : Prop :=
  greeting? (inputs c) = some i ∧ S.indexes[p]? = some i ∧ S.claimant p = none

namespace Standing

variable (S : Standing) (p c : Nat) (i : UInt64)

/-- One more place. -/
def register : Standing := { S with indexes := S.indexes ++ [i] }

/-- A connection had its turn. -/
def turn : Standing := { S with turns := Function.update S.turns c (S.turns c + 1) }

/-- A place has its claimant. -/
def claim : Standing := { S with claimant := Function.update S.claimant p (some c) }

@[simp] theorem turns_register : (S.register i).turns = S.turns := rfl

@[simp] theorem claimant_register : (S.register i).claimant = S.claimant := rfl

@[simp] theorem indexes_turn : (S.turn c).indexes = S.indexes := rfl

@[simp] theorem claimant_turn : (S.turn c).claimant = S.claimant := rfl

@[simp] theorem turns_turn_self : (S.turn c).turns c = S.turns c + 1 := Function.update_self ..

@[simp] theorem indexes_claim : (S.claim p c).indexes = S.indexes := rfl

@[simp] theorem turns_claim : (S.claim p c).turns = S.turns := rfl

@[simp] theorem claimant_claim_self : (S.claim p c).claimant p = some c := Function.update_self ..

variable {S p c}

theorem turns_turn_of_ne {c' : Nat} (h : c' ≠ c) : (S.turn c).turns c' = S.turns c' :=
  Function.update_of_ne h ..

theorem claimant_claim_of_ne {p' : Nat} (h : p' ≠ p) : (S.claim p c).claimant p' = S.claimant p' :=
  Function.update_of_ne h ..

end Standing

/-- What an occurrence changes in it, if no index is registered twice. -/
inductive Advances (inputs : Nat → List UInt8) (S : Standing) : Occurrence → Standing → Prop
  | registered {i} (hi : i ∉ S.indexes) : Advances inputs S (.register i) (S.register i)
  | claimed {c p i} (hc : S.turns c = 0) (hp : S.Offers inputs c p i) :
    Advances inputs S (.turn c) ((S.turn c).claim p c)
  | turned {c} (hp : S.turns c = 0 → ∀ p i, ¬S.Offers inputs c p i) :
    Advances inputs S (.turn c) (S.turn c)
  | looked {p q} : Advances inputs S (.look p q) S
  | hungUp {p} : Advances inputs S (.hangUp p) S
  | commanded {p m} : Advances inputs S (.command p m) S

section

variable {inputs : Nat → List UInt8} {es : List Occurrence} {e : Occurrence} {c p : Nat}

theorem turnsIn_snoc (c : Nat) (es : List Occurrence) :
    (fun c' => turnsIn c' (es ++ [.turn c])) =
      Function.update (fun c => turnsIn c es) c (turnsIn c es + 1) := by
  funext c'
  rw [turnsIn, List.count_append, Function.update_apply]
  split_ifs with h
  · simp [turnsIn, h]
  · simp [turnsIn, Ne.symm h]

theorem turnsIn_snoc_of_ne (he : ∀ c, e ≠ .turn c) :
    (fun c => turnsIn c (es ++ [e])) = fun c => turnsIn c es := by
  funext c
  rw [turnsIn, List.count_append, List.count_singleton, turnsIn]
  simp [he c]

theorem turnsIn_eq_zero_iff : turnsIn c es = 0 ↔ .turn c ∉ es := List.count_eq_zero

/-- A connection that comes gets the place that is offered to it, and no other. -/
theorem claimant?_turn_of_offers (hc : c ∉ (Docket.ofList es).arrivals.map (·.1))
    (hnodup : (Docket.ofList es).indexes.Nodup) {i : UInt64}
    (h : (Standing.ofList inputs es).Offers inputs c p i) :
    ((Docket.ofList es).note (.turn c)).claimant? inputs =
      Function.update ((Docket.ofList es).claimant? inputs) p (some c) := by
  obtain ⟨hgreeting, hindex, hnone⟩ := h
  funext p'
  rw [Docket.claimant?_turn hc, Function.update_apply]
  split_ifs with hgets hp hp
  · rw [hp]
    exact congrArg (Option.or · _) hnone
  · -- no other place has the index
    obtain ⟨i', hindex', hgreeting'⟩ := hgets
    cases hgreeting'.symm.trans hgreeting
    have hlt := (List.getElem?_eq_some_iff.1 hindex').1
    exact absurd ((List.getElem?_inj hlt hnodup).1 (hindex'.trans hindex.symm)) hp
  · subst hp
    exact absurd ⟨i, hindex, hgreeting⟩ hgets
  · rw [Option.or_none]

theorem claimant?_turn_of_not_offers (hc : c ∉ (Docket.ofList es).arrivals.map (·.1))
    (h : ∀ p i, ¬(Standing.ofList inputs es).Offers inputs c p i) :
    ((Docket.ofList es).note (.turn c)).claimant? inputs = (Docket.ofList es).claimant? inputs := by
  funext p
  rw [Docket.claimant?_turn hc]
  split_ifs with hgets
  · obtain ⟨i, hindex, hgreeting⟩ := hgets
    rcases hclaimant : (Docket.ofList es).claimant? inputs p with _ | c'
    · exact absurd ⟨hgreeting, hindex, hclaimant⟩ (h p i)
    · rfl
  · rw [Option.or_none]

/-- **Every occurrence advances what the occurrences say.** -/
theorem advances_ofList (hnodup : (Docket.ofList (es ++ [e])).indexes.Nodup) :
    Advances inputs (.ofList inputs es) e (.ofList inputs (es ++ [e])) := by
  have hstanding : Standing.ofList inputs (es ++ [e]) = ⟨((Docket.ofList es).note e).indexes,
      ((Docket.ofList es).note e).claimant? inputs, fun c => turnsIn c (es ++ [e])⟩ := by
    rw [Standing.ofList, Docket.ofList_snoc]
  rw [Docket.ofList_snoc] at hnodup
  rw [hstanding]
  cases e with
  | register i =>
    have hclaimant : ((Docket.ofList es).note (.register i)).claimant? inputs =
        (Docket.ofList es).claimant? inputs :=
      funext fun p => Docket.claimant?_register (fun _ => Docket.le_length_of_mem_arrivals) i
    rw [turnsIn_snoc_of_ne (fun _ heq => by cases heq), hclaimant]
    refine .registered fun hi => ?_
    exact (List.nodup_append.1 hnodup).2.2 i hi i (List.mem_singleton_self i) rfl
  | turn c =>
    by_cases hc : c ∈ (Docket.ofList es).arrivals.map (·.1)
    · have hne : turnsIn c es ≠ 0 := fun h => turnsIn_eq_zero_iff.1 h (Docket.mem_arrivals.1 hc)
      rw [Docket.note, if_pos hc, turnsIn_snoc]
      exact .turned fun hzero => absurd hzero hne
    · have hzero : turnsIn c es = 0 := turnsIn_eq_zero_iff.2 fun h => hc (Docket.mem_arrivals.2 h)
      have hindexes : ((Docket.ofList es).note (.turn c)).indexes = (Docket.ofList es).indexes := by
        rw [Docket.note, if_neg hc]
      rw [hindexes] at hnodup
      rw [hindexes, turnsIn_snoc]
      by_cases hoffers : ∃ p i, (Standing.ofList inputs es).Offers inputs c p i
      · obtain ⟨p, i, hp⟩ := hoffers
        rw [claimant?_turn_of_offers hc hnodup hp]
        exact .claimed hzero hp
      · have hnone : ∀ p i, ¬(Standing.ofList inputs es).Offers inputs c p i :=
          fun p i hp => hoffers ⟨p, i, hp⟩
        rw [claimant?_turn_of_not_offers hc hnone]
        exact .turned fun _ => hnone
  | look p q =>
    rw [turnsIn_snoc_of_ne (fun _ heq => by cases heq)]
    exact .looked
  | hangUp p =>
    rw [turnsIn_snoc_of_ne (fun _ heq => by cases heq)]
    exact .hungUp
  | command p m =>
    rw [turnsIn_snoc_of_ne (fun _ heq => by cases heq)]
    exact .commanded

end

end FuzzCampaign
