import FuzzCampaign.Proofs.Seats

/-!
# Routing

A connection that greets as it should gets the place of its worker, its messages come into the
queues of that place and into no others, and the commands for the place go to it. Other connections
change nothing.

* `Standing.connected`, `Standing.delivered`: what a place should have;
* `Hub.Wired`: commands go to the claimants;
* `Hub.Filled`, `Hub.Queues`: the queues hold what the claimants have sent;
* `Hub.queues_modify`: a change at one place;
* `Routed`: all of it;
* **`Hub.run_routed`**: it holds in every order of occurrences.
-/

namespace FuzzCampaign

namespace Standing

variable {S : Standing} {inputs : Nat → List UInt8} {p c : Nat}

/-- The connection that the commands for a place go to: its claimant, from its second turn on. -/
def connected (S : Standing) (p : Nat) : Option Nat := (S.claimant p).filter fun c => 2 ≤ S.turns c

/-- The messages that have come to a place: all that its claimant has sent in so many turns. In the
first it greets, and in the second it takes over the commands. -/
def delivered (S : Standing) (inputs : Nat → List UInt8) (p : Nat) : List Dispatch :=
  match S.claimant p with
  | none => []
  | some c => (passable (inputs c)).take (S.turns c - 2)

theorem connected_of_none (h : S.claimant p = none) : S.connected p = none := by
  rw [connected, h, Option.filter_none]

theorem connected_of_lt (h : S.claimant p = some c) (hc : S.turns c < 2) :
    S.connected p = none := by
  rw [connected, h, Option.filter_some, if_neg (by simpa using hc)]

theorem connected_of_le (h : S.claimant p = some c) (hc : 2 ≤ S.turns c) :
    S.connected p = some c := by
  rw [connected, h, Option.filter_some, if_pos (by simpa using hc)]

theorem delivered_of_none (h : S.claimant p = none) : S.delivered inputs p = [] := by
  rw [delivered, h]

theorem delivered_of_some (h : S.claimant p = some c) :
    S.delivered inputs p = (passable (inputs c)).take (S.turns c - 2) := by
  rw [delivered, h]

/-- A turn does not change where commands go, unless it is the second of a claimant. -/
theorem connected_turn (h : S.claimant p = some c → 2 ≤ S.turns c) :
    (S.turn c).connected p = S.connected p := by
  rcases hp : S.claimant p with _ | c'
  · rw [connected_of_none hp, connected_of_none (S := S.turn c) hp]
  · by_cases heq : c' = c
    · subst heq
      have htwo := h hp
      rw [connected_of_le hp htwo, connected_of_le (S := S.turn c') hp]
      rw [turns_turn_self]
      exact Nat.le_succ_of_le htwo
    · rw [connected, connected, claimant_turn, hp, Option.filter_some, Option.filter_some,
        turns_turn_of_ne heq]

theorem delivered_turn_of_ne (h : S.claimant p ≠ some c) :
    (S.turn c).delivered inputs p = S.delivered inputs p := by
  rcases hp : S.claimant p with _ | c'
  · rw [delivered_of_none hp, delivered_of_none (S := S.turn c) hp]
  · have hne : c' ≠ c := fun heq => h (heq ▸ hp)
    rw [delivered_of_some hp, delivered_of_some (S := S.turn c) hp, turns_turn_of_ne hne]

theorem connected_claim_of_ne {p' : Nat} (h : p' ≠ p) :
    (S.claim p c).connected p' = S.connected p' := by
  rw [connected, connected, claimant_claim_of_ne h, turns_claim]

theorem delivered_claim_of_ne {p' : Nat} (h : p' ≠ p) :
    (S.claim p c).delivered inputs p' = S.delivered inputs p' := by
  rw [delivered, delivered, claimant_claim_of_ne h, turns_claim]

end Standing

namespace Hub

open Standing

variable {inputs : Nat → List UInt8} {S S' : Standing} {x x' : Hub} {e : Occurrence} {c p : Nat}
  {r : Registration}

/-! ## Commands -/

/-- Nothing has come from places that are still to be registered, and the commands for the others go
to their claimants. -/
structure Wired (S : Standing) (x : Hub) : Prop where
  later : ∀ p, S.indexes.length ≤ p → x.taken p = [] ∧ x.accepted p = []
  wires : ∀ p r, x.board.registration? p = some r →
    r.sent = Frame.stream Binary.encodeCommand (x.accepted p) ∧ r.connection? = S.connected p

theorem registration?_modify_eq_some {s : Switchboard} {f : Registration → Registration} {p' : Nat}
    (h : (s.modify p f).registration? p' = some r) :
    ∃ r₀, s.registration? p' = some r₀ ∧ r = if p = p' then f r₀ else r₀ := by
  rw [Switchboard.registration?_modify, Option.map_eq_some_iff] at h
  obtain ⟨r₀, hr₀, rfl⟩ := h
  exact ⟨r₀, hr₀, rfl⟩

theorem link_eq_of_relink_eq {s : Switchboard} {f g : Channel → Channel}
    (hr : s.registration? p = some r) (h : s.relink p f = s.relink p g) : f r.link = g r.link := by
  have hplace := congrArg (·.registration? p) h
  simp only [Switchboard.relink, Switchboard.registration?_modify, hr, Option.map_some, if_pos]
    at hplace
  exact congrArg Registration.link (Option.some.inj hplace)

theorem Seats.lt_of_registration? (h : x.Seats inputs S) (hr : x.board.registration? p = some r) :
    p < S.indexes.length := by
  rw [← h.length_registrations]
  exact (List.getElem?_eq_some_iff.1 hr).1

theorem Wired.relink (hw : x.Wired S) (f : Channel → Channel) {p' : Nat} {r : Registration}
    (hr : (x.board.relink p f).registration? p' = some r) :
    r.sent = Frame.stream Binary.encodeCommand (x.accepted p') ∧
      r.connection? = S.connected p' := by
  obtain ⟨r₀, hr₀, rfl⟩ := registration?_modify_eq_some hr
  have hwires := hw.wires p' r₀ hr₀
  split_ifs <;> exact hwires

/-- A connection that has not had a turn has no place. -/
theorem Seats.claimant_ne (h : x.Seats inputs S) (hc : S.turns c = 0) (p : Nat) :
    S.claimant p ≠ some c :=
  fun hp => (h.greeted p c hp).1 hc

/-- The turn of a connection that is not about to take over the commands of a place. -/
theorem Wired.turn (hw : x.Wired S) (hc : ∀ p, S.claimant p = some c → 2 ≤ S.turns c)
    (connections : Nat → Connection) : Wired (S.turn c) { x with connections } := by
  refine ⟨hw.later, fun p r hr => ?_⟩
  rw [connected_turn (hc p)]
  exact hw.wires p r hr

theorem Wired.step (hw : x.Wired S) (h : x.Seats inputs S) (hx : Moves inputs S x e S' x') :
    x'.Wired S' := by
  have hlater : ∀ {p r}, x.board.registration? p = some r → ∀ p', S.indexes.length ≤ p' → p' ≠ p :=
    fun hr p' hp' heq => Nat.not_lt.2 hp' (heq ▸ h.lt_of_registration? hr)
  cases hx with
  | @registered i hi =>
    refine ⟨fun p hp => hw.later p ?_, fun p r hr => ?_⟩
    · rw [Standing.register, List.length_append] at hp
      exact Nat.le_of_add_right_le hp
    · rcases getElem?_snoc_eq_some.1 hr with hr | ⟨rfl, rfl⟩
      · exact hw.wires p r hr
      · rw [h.length_registrations]
        have hnone := h.claimant_eq_none (Nat.le_refl S.indexes.length)
        refine ⟨?_, (connected_of_none hnone).symm⟩
        rw [(hw.later _ (Nat.le_refl _)).2]
        rfl
  | @claimed c p i hc hp =>
    refine ⟨hw.later, fun p' r hr => ?_⟩
    obtain ⟨hsent, hconnection⟩ := hw.wires p' r hr
    refine ⟨hsent, hconnection.trans ?_⟩
    by_cases heq : p' = p
    · rw [heq, connected_of_none hp.2.2, connected_of_lt (claimant_claim_self ..)]
      rw [turns_claim, turns_turn_self, hc]
      decide
    · rw [connected_claim_of_ne heq, connected_turn fun hp' => absurd hp' (h.claimant_ne hc p')]
  | refused hc => exact hw.turn (fun p hp => absurd hp (h.claimant_ne hc p)) _
  | @connected c p hp hc =>
    refine ⟨hw.later, fun p' r hr => ?_⟩
    obtain ⟨r₀, hr₀, rfl⟩ := registration?_modify_eq_some hr
    obtain ⟨hsent, hconnection⟩ := hw.wires p' r₀ hr₀
    split_ifs with heq
    · subst heq
      have htwo : 2 ≤ (S.turn c).turns c := by rw [turns_turn_self, hc]
      exact ⟨hsent, (connected_of_le (S := S.turn c) hp htwo).symm⟩
    · rw [connected_turn fun hp' => absurd (h.place_inj hp hp') heq]
      exact ⟨hsent, hconnection⟩
  | @routed c p bytes hp hc hconn =>
    obtain ⟨f, hboard, -, -⟩ := x.board.route_cases p (Frame.read Binary.decodeWorker bytes)
    rw [hboard]
    refine ⟨hw.later, fun p' r hr => ?_⟩
    rw [connected_turn fun _ => hc]
    exact hw.relink f hr
  | rested _ hp _ => exact hw.turn hp _
  | @looked p q r hr =>
    refine ⟨fun p' hp' => ?_, fun p' r' hr' => hw.relink _ hr'⟩
    dsimp only
    rw [Function.update_of_ne (hlater hr p' hp')]
    exact hw.later p' hp'
  | hungUp => exact ⟨hw.later, fun p' r' hr' => hw.relink _ hr'⟩
  | @commanded p m r c hr hc =>
    refine ⟨fun p' hp' => ?_, fun p' r' hr' => ?_⟩
    · dsimp only
      rw [Function.update_of_ne (hlater hr p' hp')]
      exact hw.later p' hp'
    · obtain ⟨r₀, hr₀, rfl⟩ := registration?_modify_eq_some hr'
      obtain ⟨hsent, hconnection⟩ := hw.wires p' r₀ hr₀
      dsimp only
      split_ifs with heq
      · subst heq
        refine ⟨?_, hconnection⟩
        rw [Function.update_self, Frame.stream, List.flatMap_append, List.flatMap_singleton, hsent,
          Frame.stream]
      · rw [Function.update_of_ne (Ne.symm heq)]
        exact ⟨hsent, hconnection⟩
  | idle _ => exact hw

/-! ## Queues -/

/-- How far the claimant of a place has come: it serves the place and has the messages before it
that have not come there, or it has been closed behind the last of them. -/
def Serving (inputs : Nat → List UInt8) (S : Standing) (x : Hub) (p c : Nat) : Prop :=
  (∃ bytes, x.connections c = ⟨.serving p, bytes⟩ ∧
    messages bytes = (passable (inputs c)).drop (S.turns c - 2) ∧
    S.turns c - 2 ≤ (passable (inputs c)).length) ∨
  (∃ e? rest, x.connections c = ⟨.closed e?, rest⟩) ∧ (passable (inputs c)).length < S.turns c - 2

/-- All that has come to a place is in its queues or was taken. -/
structure Filled (inputs : Nat → List UInt8) (S : Standing) (x : Hub) (p : Nat) (link : Channel) :
    Prop where
  queued : ∀ q, onQueue q (x.taken p) ++ link.queued q = onQueue q (S.delivered inputs p)
  serving : ∀ c, S.claimant p = some c → 2 ≤ S.turns c → Serving inputs S x p c

/-- The places are filled whose orchestrator listens. -/
def Queues (inputs : Nat → List UInt8) (S : Standing) (x : Hub) : Prop :=
  ∀ p r, x.board.registration? p = some r → r.link.hasOrchestrator = true →
    Filled inputs S x p r.link

theorem filled_iff {link : Channel} (hp : S.claimant p = some c) :
    Filled inputs S x p link ↔
      (∀ q, onQueue q (x.taken p) ++ link.queued q =
        onQueue q ((passable (inputs c)).take (S.turns c - 2))) ∧
      (2 ≤ S.turns c → Serving inputs S x p c) := by
  rw [← delivered_of_some hp]
  constructor
  · exact fun h => ⟨h.queued, h.serving c hp⟩
  · rintro ⟨hqueued, hserving⟩
    refine ⟨hqueued, fun c' hp' hc => ?_⟩
    cases hp.symm.trans hp'
    exact hserving hc

theorem Serving.congr (h : Serving inputs S x p c) (hturns : S'.turns c = S.turns c)
    (hconn : x'.connections c = x.connections c) : Serving inputs S' x' p c := by
  unfold Serving
  rw [hturns, hconn]
  exact h

/-- The turn of a connection that does not have the place. -/
theorem Filled.turn {link : Channel} (h : Filled inputs S x p link) (hp : S.claimant p ≠ some c)
    (htaken : x'.taken = x.taken) (hconn : ∀ c' ≠ c, x'.connections c' = x.connections c') :
    Filled inputs (S.turn c) x' p link := by
  refine ⟨fun q => ?_, fun c' hp' hc' => ?_⟩
  · rw [htaken, delivered_turn_of_ne hp]
    exact h.queued q
  · have hne : c' ≠ c := fun heq => hp (heq ▸ hp')
    rw [turns_turn_of_ne hne] at hc'
    exact (h.serving c' hp' hc').congr (turns_turn_of_ne hne) (hconn c' hne)

theorem Filled.claim {link : Channel} (h : Filled inputs S x p link) {p' : Nat} (hp : p ≠ p') :
    Filled inputs (S.claim p' c) x p link := by
  refine ⟨fun q => ?_, fun c' hp' hc' => ?_⟩
  · rw [delivered_claim_of_ne hp]
    exact h.queued q
  · rw [claimant_claim_of_ne hp] at hp'
    exact h.serving c' hp' hc'

/-- Where the first element behind a cut goes. -/
theorem take_succ_of_drop {α : Type} {l rest : List α} {a : α} {k : Nat}
    (h : l.drop k = a :: rest) :
    l.take (k + 1) = l.take k ++ [a] ∧ l.drop (k + 1) = rest ∧ k + 1 ≤ l.length := by
  have hlength : 0 < (l.drop k).length := by
    rw [h]
    exact Nat.zero_lt_succ _
  have hk : k < l.length := by
    rw [List.length_drop] at hlength
    omega
  rw [List.drop_eq_getElem_cons hk] at h
  obtain ⟨hget, hrest⟩ := List.cons.inj h
  exact ⟨by rw [List.take_succ_eq_append_getElem hk, hget], hrest, hk⟩

theorem turns_turn_sub_two (h : 2 ≤ S.turns c) : (S.turn c).turns c - 2 = S.turns c - 2 + 1 := by
  rw [turns_turn_self]
  omega

/-- **A frame of a claimant** comes into the queue of its place, or the claimant is closed behind
the last message that can. -/
theorem Filled.routed (h : Filled inputs S x p r.link) (hp : S.claimant p = some c)
    (hc : 2 ≤ S.turns c) {bytes : List UInt8} (hconn : x.connections c = ⟨.serving p, bytes⟩)
    (hr : x.board.registration? p = some r) (hlistens : r.link.hasOrchestrator = true)
    (htaken : x'.taken = x.taken) {f : Channel → Channel}
    (hboard : (x.board.route p (Frame.read Binary.decodeWorker bytes)).1 = x.board.relink p f)
    (hnext : x'.connections c = ⟨(x.board.route p (Frame.read Binary.decodeWorker bytes)).2,
      (Frame.read Binary.decodeWorker bytes).rest⟩) :
    Filled inputs (S.turn c) x' p (f r.link) := by
  obtain ⟨hqueued, hserving⟩ := (filled_iff hp).1 h
  refine (filled_iff (S := S.turn c) hp).2 ?_
  unfold Serving
  rw [htaken, turns_turn_sub_two hc, hnext]
  rcases hserving hc with ⟨bytes', hconn', hmessages, -⟩ | ⟨⟨_, _, hconn'⟩, -⟩
  · cases hconn'.symm.trans hconn
    rcases Switchboard.route_of_hasOrchestrator hr hlistens bytes with
      ⟨m, rest, link, hread, hm, henqueue, hroute⟩ | ⟨hnil, e?, hroute⟩
    · rw [messages_of_message hread hm] at hmessages
      obtain ⟨htake, hdrop, hlt⟩ := take_succ_of_drop hmessages.symm
      rw [hroute] at hboard ⊢
      have hlink : link = f r.link := link_eq_of_relink_eq (f := fun _ => link) hr hboard
      refine ⟨fun q => ?_, fun _ => .inl ⟨rest, ?_, hdrop.symm, hlt⟩⟩
      · rw [← hlink, Channel.queued_enqueue henqueue, ← List.append_assoc, hqueued, htake,
          onQueue_append]
      · rw [hread]
        rfl
    · rw [hnil] at hmessages
      have hlength := List.drop_eq_nil_iff.1 hmessages.symm
      rw [hroute] at hboard ⊢
      have hlink : { r.link with hasWorker := false } = f r.link :=
        link_eq_of_relink_eq (f := fun link => { link with hasWorker := false }) hr hboard
      refine ⟨fun q => ?_, fun _ => .inr ⟨⟨e?, _, rfl⟩, Nat.lt_succ_of_le hlength⟩⟩
      rw [← hlink, List.take_of_length_le (Nat.le_succ_of_le hlength)]
      rw [List.take_of_length_le hlength] at hqueued
      exact hqueued q
  · cases hconn'.symm.trans hconn

/-! ## Queues, one occurrence after another -/

theorem filled_fresh (hp : S.claimant p = none) (htaken : x.taken p = []) :
    Filled inputs S x p .fresh := by
  refine ⟨fun q => ?_, fun c hc => ?_⟩
  · rw [htaken, delivered_of_none hp]
    cases q <;> rfl
  · rw [hp] at hc
    cases hc

theorem Filled.claimed {link : Channel} (h : Filled inputs S x p link) (hp : S.claimant p = none)
    (hc : S.turns c = 0) (htaken : x'.taken = x.taken) :
    Filled inputs ((S.turn c).claim p c) x' p link := by
  have hturns : ((S.turn c).claim p c).turns c = 1 := by rw [turns_claim, turns_turn_self, hc]
  refine (filled_iff (claimant_claim_self ..)).2 ?_
  rw [htaken, hturns]
  refine ⟨fun q => (h.queued q).trans ?_, fun htwo => by omega⟩
  rw [delivered_of_none hp]
  rfl

/-- Nothing comes to a place when its claimant takes over the commands. -/
theorem Filled.connected {link : Channel} (h : Filled inputs S x p link)
    (hp : S.claimant p = some c) (hc : S.turns c = 1) {i : UInt64}
    (hgreeting : greeting? (inputs c) = some i) (htaken : x'.taken = x.taken)
    (hconn : x'.connections c = ⟨.serving p, behindFirst (inputs c)⟩) :
    Filled inputs (S.turn c) x' p link := by
  refine (filled_iff (S := S.turn c) hp).2 ?_
  have hqueued := ((filled_iff hp).1 h).1
  rw [hc] at hqueued
  rw [htaken, turns_turn_self, hc]
  refine ⟨hqueued, fun _ => .inl ⟨_, hconn, ?_⟩⟩
  rw [turns_turn_self, hc]
  exact ⟨(passable_of_greeting? hgreeting).symm, Nat.zero_le _⟩

/-- The last message that could come is behind a claimant that was closed. -/
theorem Filled.rested {link : Channel} (h : Filled inputs S x p link) (hp : S.claimant p = some c)
    (hc : 2 ≤ S.turns c) {e? : Option CampaignError} {rest : List UInt8}
    (hconn : x.connections c = ⟨.closed e?, rest⟩) (htaken : x'.taken = x.taken)
    (hconn' : x'.connections c = ⟨.closed e?, rest⟩) : Filled inputs (S.turn c) x' p link := by
  obtain ⟨hqueued, hserving⟩ := (filled_iff hp).1 h
  rcases hserving hc with ⟨_, hserving, -, -⟩ | ⟨-, hlt⟩
  · cases hserving.symm.trans hconn
  · refine (filled_iff (S := S.turn c) hp).2 ?_
    unfold Serving
    rw [List.take_of_length_le (Nat.le_of_lt hlt)] at hqueued
    rw [htaken, turns_turn_sub_two hc,
      List.take_of_length_le (Nat.le_succ_of_le (Nat.le_of_lt hlt))]
    exact ⟨hqueued, fun _ => .inr ⟨⟨e?, rest, hconn'⟩, Nat.lt_succ_of_lt hlt⟩⟩

theorem Filled.looked {link : Channel} (h : Filled inputs S x p link) (q : Queue)
    (htaken : x'.taken p = x.taken p ++ (link.take q).1.toList)
    (hconn : x'.connections = x.connections) : Filled inputs S x' p (link.take q).2 := by
  refine ⟨fun q' => ?_, fun c hp hc => (h.serving c hp hc).congr rfl (congrFun hconn c)⟩
  rw [htaken, onQueue_append, List.append_assoc, Channel.onQueue_take]
  exact h.queued q'

theorem Filled.congr {link : Channel} (h : Filled inputs S x p link)
    (htaken : x'.taken p = x.taken p) (hconn : x'.connections = x.connections) :
    Filled inputs S x' p link := by
  refine ⟨fun q => ?_, fun c hp hc => (h.serving c hp hc).congr rfl (congrFun hconn c)⟩
  rw [htaken]
  exact h.queued q

/-- A change at one place, which fills it and leaves the others filled. -/
theorem queues_modify {f : Registration → Registration} (hboard : x'.board = x.board.modify p f)
    (hplace : ∀ r, x.board.registration? p = some r → (f r).link.hasOrchestrator = true →
      Filled inputs S' x' p (f r).link)
    (hothers : ∀ p' r, p ≠ p' → x.board.registration? p' = some r →
      r.link.hasOrchestrator = true → Filled inputs S' x' p' r.link) : Queues inputs S' x' := by
  intro p' r hr hlistens
  rw [hboard] at hr
  obtain ⟨r₀, hr₀, rfl⟩ := registration?_modify_eq_some hr
  by_cases heq : p = p'
  · subst heq
    rw [if_pos rfl] at hlistens ⊢
    exact hplace r₀ hr₀ hlistens
  · rw [if_neg heq] at hlistens ⊢
    exact hothers p' r₀ heq hr₀ hlistens

theorem Queues.turn_others (hq : Queues inputs S x) (h : x.Seats inputs S)
    (hp : S.claimant p = some c) (htaken : x'.taken = x.taken)
    (hconn : ∀ c' ≠ c, x'.connections c' = x.connections c') (p' : Nat) (r : Registration)
    (hne : p ≠ p') (hr : x.board.registration? p' = some r)
    (hlistens : r.link.hasOrchestrator = true) : Filled inputs (S.turn c) x' p' r.link :=
  (hq p' r hr hlistens).turn (fun hp' => hne (h.place_inj hp hp')) htaken hconn

theorem Queues.step (hq : Queues inputs S x) (hw : x.Wired S) (h : x.Seats inputs S)
    (hx : Moves inputs S x e S' x') : Queues inputs S' x' := by
  have hsame : ∀ {c conn} c', c' ≠ c → Function.update x.connections c conn c' = x.connections c' :=
    fun _ hne => Function.update_of_ne hne ..
  cases hx with
  | @registered i hi =>
    intro p r hr hlistens
    rcases getElem?_snoc_eq_some.1 hr with hr | ⟨rfl, rfl⟩
    · exact ⟨(hq p r hr hlistens).queued, (hq p r hr hlistens).serving⟩
    · rw [h.length_registrations]
      have hnone : (S.register i).claimant S.indexes.length = none :=
        h.claimant_eq_none (Nat.le_refl _)
      exact filled_fresh hnone (hw.later _ (Nat.le_refl _)).1
  | @claimed c p i hc hp =>
    intro p' r hr hlistens
    have hfilled := hq p' r hr hlistens
    by_cases heq : p' = p
    · subst heq
      exact hfilled.claimed hp.2.2 hc rfl
    · refine Filled.claim ?_ heq
      exact hfilled.turn (h.claimant_ne hc p') rfl hsame
  | refused hc =>
    intro p r hr hlistens
    exact (hq p r hr hlistens).turn (h.claimant_ne hc p) rfl hsame
  | @connected c p hp hc =>
    obtain ⟨-, i, -, hgreeting⟩ := h.greeted p c hp
    refine queues_modify rfl (fun r hr hlistens => ?_) (hq.turn_others h hp rfl hsame)
    exact (hq p r hr hlistens).connected hp hc hgreeting rfl (Function.update_self ..)
  | @routed c p bytes hp hc hconn =>
    obtain ⟨f, hboard, hkeeps, -⟩ := x.board.route_cases p (Frame.read Binary.decodeWorker bytes)
    refine queues_modify hboard (fun r hr hlistens => ?_) (hq.turn_others h hp rfl hsame)
    have hlistens₀ := (hkeeps r hr).symm.trans hlistens
    refine (hq p r hr hlistens₀).routed hp hc hconn hr hlistens₀ ?_ hboard ?_
    · rfl
    · exact Function.update_self ..
  | @rested c e? rest hne hp hconn =>
    intro p r hr hlistens
    have hfilled := hq p r hr hlistens
    by_cases hplace : S.claimant p = some c
    · exact hfilled.rested hplace (hp p hplace) hconn rfl (Function.update_self ..)
    · exact hfilled.turn hplace rfl hsame
  | @looked p q r hr =>
    refine queues_modify rfl (fun r' hr' hlistens => ?_) fun p' r' hne hr' hlistens => ?_
    · cases hr.symm.trans hr'
      have hlistens₀ := (Channel.hasOrchestrator_take ..).symm.trans hlistens
      exact (hq p r hr hlistens₀).looked q (Function.update_self ..) rfl
    · exact (hq p' r' hr' hlistens).congr (Function.update_of_ne (Ne.symm hne) ..) rfl
  | @hungUp p =>
    refine queues_modify rfl (fun _ _ => nofun) fun p' r' _ hr' hlistens => ?_
    exact (hq p' r' hr' hlistens).congr rfl rfl
  | @commanded p m r c hr hc =>
    refine queues_modify rfl (fun r' hr' hlistens => ?_) fun p' r' _ hr' hlistens => ?_
    · exact (hq p r' hr' hlistens).congr rfl rfl
    · exact (hq p' r' hr' hlistens).congr rfl rfl
  | idle _ => exact hq

/-- The orchestrator listens to a place until it hangs up. -/
theorem Moves.listens (hx : Moves inputs S x e S' x') (he : e ≠ .hangUp p)
    (h : ∀ r, x.board.registration? p = some r → r.link.hasOrchestrator = true) (r : Registration)
    (hr : x'.board.registration? p = some r) : r.link.hasOrchestrator = true := by
  cases hx with
  | registered _ =>
    rcases getElem?_snoc_eq_some.1 hr with hr | ⟨-, rfl⟩
    · exact h r hr
    · rfl
  | connected _ _ =>
    obtain ⟨r₀, hr₀, rfl⟩ := registration?_modify_eq_some hr
    split_ifs <;> exact h r₀ hr₀
  | @routed c p' bytes _ _ _ =>
    obtain ⟨f, hboard, hkeeps, -⟩ := x.board.route_cases p' (Frame.read Binary.decodeWorker bytes)
    rw [hboard] at hr
    obtain ⟨r₀, hr₀, rfl⟩ := registration?_modify_eq_some hr
    split_ifs with heq
    · subst heq
      exact (hkeeps r₀ hr₀).trans (h r₀ hr₀)
    · exact h r₀ hr₀
  | looked _ =>
    obtain ⟨r₀, hr₀, rfl⟩ := registration?_modify_eq_some hr
    split_ifs
    · exact (Channel.hasOrchestrator_take ..).trans (h r₀ hr₀)
    · exact h r₀ hr₀
  | @hungUp p' =>
    obtain ⟨r₀, hr₀, rfl⟩ := registration?_modify_eq_some hr
    split_ifs with heq
    · exact absurd (congrArg Occurrence.hangUp heq) he
    · exact h r₀ hr₀
  | commanded _ _ =>
    obtain ⟨r₀, hr₀, rfl⟩ := registration?_modify_eq_some hr
    split_ifs <;> exact h r₀ hr₀
  | _ => exact h r hr

/-! ## Whatever happens -/

theorem wired_queues_run {es : List Occurrence} (hnodup : (Docket.ofList es).indexes.Nodup) :
    Wired (.ofList inputs es) (run inputs es) ∧
      Queues inputs (.ofList inputs es) (run inputs es) := by
  induction es using List.reverseRecOn with
  | nil => exact ⟨⟨fun _ _ => ⟨rfl, rfl⟩, nofun⟩, nofun⟩
  | append_singleton es e ih =>
    have hnodup' := Docket.nodup_of_snoc hnodup
    obtain ⟨hw, hq⟩ := ih hnodup'
    have hseats : (run inputs es).Seats inputs (.ofList inputs es) := seats_run hnodup'
    have hmoves := hseats.moves (advances_ofList hnodup)
    rw [run_snoc]
    exact ⟨hw.step hseats hmoves, hq.step hw hseats hmoves⟩

theorem listens_run {es : List Occurrence} (hnodup : (Docket.ofList es).indexes.Nodup)
    (hp : .hangUp p ∉ es) : ∀ r, (run inputs es).board.registration? p = some r →
      r.link.hasOrchestrator = true := by
  induction es using List.reverseRecOn with
  | nil => nofun
  | append_singleton es e ih =>
    have hnodup' := Docket.nodup_of_snoc hnodup
    rw [List.mem_append, not_or, List.mem_singleton] at hp
    rw [run_snoc]
    have hseats : (run inputs es).Seats inputs (.ofList inputs es) := seats_run hnodup'
    exact (hseats.moves (advances_ofList hnodup)).listens (Ne.symm hp.2) (ih hnodup' hp.1)

end Hub

/-- What a server comes to after some occurrences. -/
structure Routed (inputs : Nat → List UInt8) (es : List Occurrence) (x : Hub) : Prop where
  indexes : x.board.registrations.map (·.index) = (Docket.ofList es).indexes
  /-- A registration waits until its claimant comes, and then no longer. -/
  waiting : ∀ i p, x.board.waiting.get? i = some p ↔
    (Docket.ofList es).indexes[p]? = some i ∧ (Docket.ofList es).claimant? inputs p = none
  /-- Nobody else has the place, -/
  seated : ∀ c p, (x.connections c).state = .claimed p ∨ (x.connections c).state = .serving p →
    (Docket.ofList es).claimant? inputs p = some c
  /-- and it stays the claimant whatever follows. -/
  lasting : ∀ p c, (Docket.ofList es).claimant? inputs p = some c → ∀ more,
    (Docket.ofList (es ++ more)).claimant? inputs p = some c
  /-- A connection whose first frame is no greeting that is waited for changes neither registrations
  nor queues, with this frame and with all that follow. -/
  refused : ∀ c, (if .turn c ∈ es then ∀ p, (Docket.ofList es).claimant? inputs p ≠ some c
    else ∀ i, greeting? (inputs c) = some i → x.board.waiting.get? i = none) →
      (x.step (.turn c)).board = x.board
  /-- As long as the orchestrator has not hung up, the messages that it has taken and those in the
  queues are the ones that the claimant has sent in its turns after the second, each kind in
  order. -/
  delivered : ∀ p r, .hangUp p ∉ es → x.board.registration? p = some r → ∀ q,
    onQueue q (x.taken p) ++ r.link.queued q =
      onQueue q (match (Docket.ofList es).claimant? inputs p with
        | none => []
        | some c => (passable (inputs c)).take (turnsIn c es - 2))
  /-- The commands that were accepted for a place, and only these, are on the way to its
  claimant. -/
  commands : ∀ p r, x.board.registration? p = some r →
    r.sent = Frame.stream Binary.encodeCommand (x.accepted p) ∧
      r.connection? = ((Docket.ofList es).claimant? inputs p).filter fun c => 2 ≤ turnsIn c es
  /-- A command is refused before there is a claimant, and accepted from its second turn on. -/
  down : ∀ p r m, x.board.registration? p = some r →
    ((Docket.ofList es).claimant? inputs p = none →
      x.board.down p m = .error (Switchboard.notConnected r.index)) ∧
    ∀ c, (Docket.ofList es).claimant? inputs p = some c → 2 ≤ turnsIn c es →
      ∃ board, x.board.down p m = .ok board

namespace Hub

open Standing

theorem Seats.board_turn {inputs : Nat → List UInt8} {S S' : Standing} {x : Hub} {c : Nat}
    (h : x.Seats inputs S) (hS : Advances inputs S (.turn c) S')
    (hc : if S.turns c ≠ 0 then ∀ p, S.claimant p ≠ some c
      else ∀ i, greeting? (inputs c) = some i → x.board.waiting.get? i = none) :
    (x.step (.turn c)).board = x.board := by
  have hmoves := h.moves hS
  generalize x.step (.turn c) = x' at hmoves
  cases hmoves with
  | @claimed _ p i hzero hp =>
    rw [if_neg (not_not.2 hzero)] at hc
    have hwaits := (h.waiting i p).2 hp.2
    rw [hc i hp.1] at hwaits
    cases hwaits
  | connected hp hone =>
    rw [if_pos (by omega)] at hc
    exact absurd hp (hc _)
  | routed hp htwo _ =>
    rw [if_pos (by omega)] at hc
    exact absurd hp (hc _)
  | _ => rfl

/-- **Routing.** Workers are registered under different indexes and connections send whatever they
want, in any order. Each registration is claimed by the first connection that then greets with its
index, and this one alone fills its queues and gets its commands; all others change nothing. -/
theorem run_routed (inputs : Nat → List UInt8) (es : List Occurrence)
    (hdistinct : (Docket.ofList es).indexes.Nodup) : Routed inputs es (run inputs es) := by
  have hseats : (run inputs es).Seats inputs (.ofList inputs es) := seats_run hdistinct
  obtain ⟨hw, hq⟩ : Wired (.ofList inputs es) (run inputs es) ∧
    Queues inputs (.ofList inputs es) (run inputs es) := wired_queues_run hdistinct
  refine ⟨hseats.indexes, hseats.waiting, fun c p hstate => ?_,
    fun p c hp => Docket.claimant?_append hp, fun c hc => ?_, fun p r hp hr q => ?_, hw.wires,
    fun p r m hr => ⟨fun hp => ?_, fun c hp hc => ?_⟩⟩
  · have hstands := hseats.stands c
    generalize (run inputs es).connections c = conn at hstands hstate
    cases hstands with
    | fresh _ => simp at hstate
    | away _ _ => simp at hstate
    | claimed hp _ =>
      obtain rfl : _ = p := by simpa using hstate
      exact hp
    | serving hp _ =>
      obtain rfl : _ = p := by simpa using hstate
      exact hp
    | ended _ _ => simp at hstate
  · have hnodup : (Docket.ofList (es ++ [.turn c])).indexes.Nodup := by
      rw [Docket.ofList_snoc, Docket.note]
      split_ifs <;> exact hdistinct
    refine hseats.board_turn (advances_ofList hnodup) ?_
    change if turnsIn c es ≠ 0 then _ else _
    simp only [ne_eq, turnsIn_eq_zero_iff, not_not]
    exact hc
  · exact (hq p r hr (listens_run hdistinct hp r hr)).queued q
  · refine Switchboard.down_of_no_connection hr ?_ m
    rw [(hw.wires p r hr).2]
    exact connected_of_none hp
  · have hconnection := (hw.wires p r hr).2.trans
      (connected_of_le (S := .ofList inputs es) hp hc)
    exact ⟨_, Switchboard.down_of_connection hr hconnection m⟩

/-- Four peers of a server: one sends garbage, one greets in another version, and two greet
alike. -/
def fourPeers : Nat → List UInt8
  | 0 => [0, 0, 0, 1, 200]
  | 1 => Frame.stream Binary.encodeWorker [.hello 7 2]
  | 2 => Frame.stream Binary.encodeWorker
    [.hello 7 1, .exception none, .finished, .hello 7 1, .finished]
  | 3 => Frame.stream Binary.encodeWorker [.hello 7 1, .finished]
  | _ => []

/-- Two workers are registered, and the third peer claims the first place. -/
def fourVisits : List Occurrence :=
  [.register 7, .turn 0, .turn 1, .register 9, .command 0 .shutdown, .turn 2, .turn 3, .turn 2,
    .turn 2, .command 0 (.decision false), .look 0 .exceptions, .turn 3, .turn 2, .turn 2, .turn 2]

theorem claimants_fourVisits : (Docket.ofList fourVisits).claimant? fourPeers 0 = some 2 ∧
    (Docket.ofList fourVisits).claimant? fourPeers 1 = none := by decide +kernel

theorem passable_thirdPeer : passable (fourPeers 2) = [.exception none, .finished] := by
  decide +kernel

/-- The messages of the third peer come to the first place, only the later command goes to it, and
the second place waits. -/
theorem run_routed_fourVisits :
    (Docket.ofList fourVisits).indexes.Nodup ∧
    (∀ r, (run fourPeers fourVisits).board.registration? 0 = some r →
      onQueue .exceptions ((run fourPeers fourVisits).taken 0) ++ r.link.queued .exceptions =
        [.exception none] ∧
      onQueue .completions ((run fourPeers fourVisits).taken 0) ++ r.link.queued .completions =
        [.finished] ∧
      r.sent = Frame.stream Binary.encodeCommand [.decision false] ∧ r.connection? = some 2) ∧
    (run fourPeers fourVisits).board.waiting.get? 9 = some 1 := by
  have hdistinct : (Docket.ofList fourVisits).indexes.Nodup := by decide
  have hrouted := run_routed fourPeers fourVisits hdistinct
  obtain ⟨hclaimed, hfree⟩ := claimants_fourVisits
  refine ⟨hdistinct, fun r hr => ?_, (hrouted.waiting 9 1).2 ⟨by decide, hfree⟩⟩
  have hdelivered := hrouted.delivered 0 r (by decide) hr
  have hcommands := hrouted.commands 0 r hr
  have haccepted : (run fourPeers fourVisits).accepted 0 = [.decision false] := by decide +kernel
  rw [hclaimed] at hdelivered hcommands
  simp only [passable_thirdPeer] at hdelivered
  rw [haccepted] at hcommands
  exact ⟨hdelivered .exceptions, hdelivered .completions, hcommands⟩

end Hub

end FuzzCampaign
