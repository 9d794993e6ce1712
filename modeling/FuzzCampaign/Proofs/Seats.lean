import FuzzCampaign.Proofs.Standing

/-!
# Places and their claimants

At every moment the registrations wait for the connections that are to have them, and each
connection is where it should be: in its place, turned away, or before its first turn.

* `Switchboard.route_cases`, `Switchboard.greet_of_waiting`, `Switchboard.down_of_connection`: steps
  of the server;
* `Stands`, `Hub.Seats`: connections and registrations are where they should be;
* `Hub.Moves`, **`Hub.Seats.moves`**: all that an occurrence can do then;
* **`Hub.seats_run`**: everyone is where they should be, whatever has happened.
-/

namespace FuzzCampaign

/-! ## Steps of the server -/

namespace Switchboard

variable {s : Switchboard} {p p' : Nat} {i : UInt64} {bytes : List UInt8}

theorem registration?_modify (f : Registration → Registration) :
    (s.modify p f).registration? p' =
      (s.registration? p').map fun r => if p = p' then f r else r :=
  List.getElem?_modify ..

theorem indexes_modify {f : Registration → Registration} (hf : ∀ r, (f r).index = r.index) :
    (s.modify p f).registrations.map (·.index) = s.registrations.map (·.index) := by
  refine List.ext_getElem? fun k => ?_
  rw [List.getElem?_map, List.getElem?_map]
  change ((s.modify p f).registration? k).map _ = (s.registration? k).map _
  rw [registration?_modify, Option.map_map]
  refine congrArg (Option.map · _) (funext fun r => ?_)
  simp only [Function.comp_apply]
  split_ifs
  · exact hf r
  · rfl

@[simp] theorem relink_id : s.relink p (fun link => link) = s := by
  have hmodify : s.registrations.modify p (fun r => { r with link := r.link }) = s.registrations :=
    List.modify_id ..
  rw [relink, modify, hmodify]

/-- A frame of a connection changes the queues of its place and nothing else. -/
theorem route_cases (s : Switchboard) (p : Nat) (frame : Frame.Reading Dispatch) :
    ∃ f : Channel → Channel, (s.route p frame).1 = s.relink p f ∧
      (∀ r, s.registration? p = some r → (f r.link).hasOrchestrator = r.link.hasOrchestrator) ∧
      ((s.route p frame).2 = .serving p ∨ ∃ e?, (s.route p frame).2 = .closed e?) := by
  have hclosed : ∀ e?, ∃ f : Channel → Channel, s.disconnect p = s.relink p f ∧
      (∀ r, s.registration? p = some r → (f r.link).hasOrchestrator = r.link.hasOrchestrator) ∧
      (ConnectionState.closed e? = .serving p ∨ ∃ e?', ConnectionState.closed e? = .closed e?') :=
    fun e? => ⟨fun link => { link with hasWorker := false }, rfl, fun _ _ => rfl, .inr ⟨e?, rfl⟩⟩
  cases frame with
  | ended => exact hclosed none
  | failed e rest => exact hclosed (some e)
  | message m rest =>
    rw [route]
    rcases hdeliver : s.deliver p m with e | s'
    · exact hclosed (some e)
    · rw [deliver] at hdeliver
      rcases hr : s.registration? p with _ | r
      · rw [hr] at hdeliver
        cases hdeliver
        exact ⟨fun link => link, relink_id.symm, fun _ hnone => (by cases hnone), .inl rfl⟩
      · rw [hr] at hdeliver
        rcases hsend : r.link.send m with e | link
        · simp [hsend, Except.map] at hdeliver
        · simp only [hsend, Except.map, Except.ok.injEq] at hdeliver
          refine ⟨fun _ => link, hdeliver.symm, fun r' hr' => ?_, .inl rfl⟩
          cases hr'
          exact Channel.hasOrchestrator_send hsend

/-- While the orchestrator listens, a message is queued, and anything else closes the connection. -/
theorem route_of_hasOrchestrator {r : Registration} (hr : s.registration? p = some r)
    (hlistens : r.link.hasOrchestrator = true) (bytes : List UInt8) :
    (∃ m rest link, Frame.read Binary.decodeWorker bytes = .message m rest ∧
      m.queue?.isSome = true ∧ r.link.enqueue m = .ok link ∧
      s.route p (Frame.read Binary.decodeWorker bytes) = (s.relink p fun _ => link, .serving p)) ∨
    (messages bytes = [] ∧
      ∃ e?, s.route p (Frame.read Binary.decodeWorker bytes) = (s.disconnect p, .closed e?)) := by
  rcases hread : Frame.read Binary.decodeWorker bytes with ⟨m, rest⟩ | _ | ⟨e, rest⟩
  · rcases hm : m.queue? with _ | q
    · cases m with
      | hello index version =>
        refine .inr ⟨messages_of_hello hread, some (Channel.unexpectedHello index), ?_⟩
        rw [route, deliver, hr]
        rfl
      | _ => cases hm
    · have hsome : m.queue?.isSome = true := by rw [hm]; rfl
      obtain ⟨link, hsend, henqueue⟩ := Channel.send_of_queue? hlistens hsome
      refine .inl ⟨m, rest, link, rfl, hsome, henqueue, ?_⟩
      rw [route, deliver, hr]
      simp only [hsend, Except.map]
  · exact .inr ⟨messages_of_ended hread, none, rfl⟩
  · exact .inr ⟨messages_of_failed hread, some e, rfl⟩

theorem greet_of_waiting (hi : greeting? bytes = some i) (hp : s.waiting.get? i = some p) :
    s.greet (Frame.read Binary.decodeWorker bytes) = (s.assign i, .claimed p) := by
  rw [greeting?_eq_some_iff.1 hi]
  simp [greet, claim, hp]

theorem greet_of_not_waiting (h : ∀ i, greeting? bytes = some i → s.waiting.get? i = none) :
    ∃ e?, s.greet (Frame.read Binary.decodeWorker bytes) = (s, .closed e?) := by
  unfold greeting? at h
  rcases hread : Frame.read Binary.decodeWorker bytes with ⟨_ | _ | _ | _, rest⟩ | _ | ⟨e, rest⟩
  case message.hello i version =>
    rw [hread] at h
    by_cases hversion : version = linkVersion
    · have hnone := h i (if_pos hversion)
      exact ⟨some (unexpected i), by simp [greet, claim, hversion, hnone]⟩
    · exact ⟨some (versionMismatch i version), by simp [greet, claim, hversion]⟩
  all_goals exact ⟨_, rfl⟩

theorem down_of_connection {r : Registration} {c : Nat} (hr : s.registration? p = some r)
    (hc : r.connection? = some c) (m : Command) :
    s.down p m = .ok (s.modify p fun r =>
      { r with sent := r.sent ++ Frame.frame (Binary.encodeCommand m) }) := by
  have hfits : (Binary.encodeCommand m).length ≤ Frame.maxLength := by
    cases m with
    | decision attach => cases attach <;> decide
    | shutdown => decide
  rw [down, hr]
  simp only [hc, Frame.write_of_le hfits]
  rfl

theorem down_of_no_connection {r : Registration} (hr : s.registration? p = some r)
    (hc : r.connection? = none) (m : Command) : s.down p m = .error (notConnected r.index) := by
  rw [down, hr]
  simp only [hc]

end Switchboard

namespace Hub

variable {x : Hub} {p : Nat} {r : Registration}

theorem step_command_of_connection {c : Nat} (hr : x.board.registration? p = some r)
    (hc : r.connection? = some c) (m : Command) :
    x.step (.command p m) =
      { x with
        board := x.board.modify p fun r =>
          { r with sent := r.sent ++ Frame.frame (Binary.encodeCommand m) }
        accepted := Function.update x.accepted p (x.accepted p ++ [m]) } := by
  rw [step, hr, Switchboard.down_of_connection hr hc]

theorem step_command_of_no_connection
    (h : ∀ r, x.board.registration? p = some r → r.connection? = none)
    (m : Command) : x.step (.command p m) = x := by
  rw [step]
  rcases hr : x.board.registration? p with _ | r
  · rfl
  · rw [Switchboard.down_of_no_connection hr (h r hr)]

end Hub

/-! ## Seats -/

/-- A connection is where it should be: it has not had a turn, or it was turned away, or it has the
place that it claimed. -/
inductive Stands (inputs : Nat → List UInt8) (S : Standing) (c : Nat) : Connection → Prop
  | fresh (h : S.turns c = 0) : Stands inputs S c ⟨.unclaimed, inputs c⟩
  | away {e? rest} (h : S.turns c ≠ 0) (hp : ∀ p, S.claimant p ≠ some c) :
    Stands inputs S c ⟨.closed e?, rest⟩
  | claimed {p} (hp : S.claimant p = some c) (h : S.turns c = 1) :
    Stands inputs S c ⟨.claimed p, behindFirst (inputs c)⟩
  | serving {p rest} (hp : S.claimant p = some c) (h : 2 ≤ S.turns c) :
    Stands inputs S c ⟨.serving p, rest⟩
  | ended {p e? rest} (hp : S.claimant p = some c) (h : 2 ≤ S.turns c) :
    Stands inputs S c ⟨.closed e?, rest⟩

theorem Stands.congr {inputs : Nat → List UInt8} {S S' : Standing} {c : Nat} {conn : Connection}
    (h : Stands inputs S c conn)
    (hturns : S'.turns c = S.turns c)
    (hplaces : ∀ p, S'.claimant p = some c ↔ S.claimant p = some c) :
    Stands inputs S' c conn := by
  cases h with
  | fresh h => exact .fresh (hturns.trans h)
  | away h hp => exact .away (hturns ▸ h) fun p => mt (hplaces p).1 (hp p)
  | claimed hp h => exact .claimed ((hplaces _).2 hp) (hturns.trans h)
  | serving hp h => exact .serving ((hplaces _).2 hp) (hturns ▸ h)
  | ended hp h => exact .ended ((hplaces _).2 hp) (hturns ▸ h)

namespace Hub

/-- Places wait for their claimants, and connections are where they should be. -/
structure Seats (inputs : Nat → List UInt8) (S : Standing) (x : Hub) : Prop where
  indexes : x.board.registrations.map (·.index) = S.indexes
  nodup : S.indexes.Nodup
  waiting : ∀ i p, x.board.waiting.get? i = some p ↔ S.indexes[p]? = some i ∧ S.claimant p = none
  greeted : ∀ p c, S.claimant p = some c →
    S.turns c ≠ 0 ∧ ∃ i, S.indexes[p]? = some i ∧ greeting? (inputs c) = some i
  stands : ∀ c, Stands inputs S c (x.connections c)

/-- All that an occurrence can do when everyone is where they should be. -/
inductive Moves (inputs : Nat → List UInt8) (S : Standing) (x : Hub) :
    Occurrence → Standing → Hub → Prop
  | registered {i} (hi : i ∉ S.indexes) :
    Moves inputs S x (.register i) (S.register i)
      { x with
        board := ⟨x.board.registrations ++ [⟨i, .fresh, none, []⟩],
          x.board.waiting.insert i S.indexes.length⟩ }
  | claimed {c p i} (hc : S.turns c = 0) (hp : S.Offers inputs c p i) :
    Moves inputs S x (.turn c) ((S.turn c).claim p c)
      { x with
        board := x.board.assign i
        connections := Function.update x.connections c ⟨.claimed p, behindFirst (inputs c)⟩ }
  | refused {c e? rest} (hc : S.turns c = 0) :
    Moves inputs S x (.turn c) (S.turn c)
      { x with connections := Function.update x.connections c ⟨.closed e?, rest⟩ }
  | connected {c p} (hp : S.claimant p = some c) (hc : S.turns c = 1) :
    Moves inputs S x (.turn c) (S.turn c)
      { x with
        board := x.board.connect c p
        connections := Function.update x.connections c ⟨.serving p, behindFirst (inputs c)⟩ }
  | routed {c p bytes} (hp : S.claimant p = some c) (hc : 2 ≤ S.turns c)
    (hconn : x.connections c = ⟨.serving p, bytes⟩) :
    Moves inputs S x (.turn c) (S.turn c)
      { x with
        board := (x.board.route p (Frame.read Binary.decodeWorker bytes)).1
        connections := Function.update x.connections c
          ⟨(x.board.route p (Frame.read Binary.decodeWorker bytes)).2,
            (Frame.read Binary.decodeWorker bytes).rest⟩ }
  | rested {c e? rest} (hc : S.turns c ≠ 0) (hp : ∀ p, S.claimant p = some c → 2 ≤ S.turns c)
    (hconn : x.connections c = ⟨.closed e?, rest⟩) :
    Moves inputs S x (.turn c) (S.turn c)
      { x with connections := Function.update x.connections c ⟨.closed e?, rest⟩ }
  | looked {p q r} (hr : x.board.registration? p = some r) :
    Moves inputs S x (.look p q) S
      { x with
        board := x.board.relink p fun link => (link.take q).2
        taken := Function.update x.taken p (x.taken p ++ (r.link.take q).1.toList) }
  | hungUp {p} :
    Moves inputs S x (.hangUp p) S { x with board := x.board.relink p Channel.dropOrchestrator }
  | commanded {p m r c} (hr : x.board.registration? p = some r) (hc : r.connection? = some c) :
    Moves inputs S x (.command p m) S
      { x with
        board := x.board.modify p fun r =>
          { r with sent := r.sent ++ Frame.frame (Binary.encodeCommand m) }
        accepted := Function.update x.accepted p (x.accepted p ++ [m]) }
  /-- A look into a queue that is not there, or a command that is refused. -/
  | idle {e} (he : ∀ p, e ≠ .hangUp p) : Moves inputs S x e S x

open Standing

variable {inputs : Nat → List UInt8} {S S' : Standing} {x x' : Hub} {e : Occurrence} {c p : Nat}

theorem step_turn : x.step (.turn c) =
    { x with
      board := (x.board.advance c (x.connections c)).1
      connections :=
        Function.update x.connections c (x.board.advance c (x.connections c)).2 } := rfl

/-- A connection has at most one place. -/
theorem Seats.place_inj (h : x.Seats inputs S) {p' : Nat} (hp : S.claimant p = some c)
    (hp' : S.claimant p' = some c) : p = p' := by
  obtain ⟨-, i, hindex, hgreeting⟩ := h.greeted p c hp
  obtain ⟨-, i', hindex', hgreeting'⟩ := h.greeted p' c hp'
  cases hgreeting.symm.trans hgreeting'
  exact (List.getElem?_inj (List.getElem?_eq_some_iff.1 hindex).1 h.nodup).1
    (hindex.trans hindex'.symm)

/-- Who is to have a place has one. -/
theorem Seats.claimant_eq_none (h : x.Seats inputs S) (hp : S.indexes.length ≤ p) :
    S.claimant p = none := by
  rcases hc : S.claimant p with _ | c
  · rfl
  · obtain ⟨-, i, hindex, -⟩ := h.greeted p c hc
    rw [List.getElem?_eq_none hp] at hindex
    cases hindex

theorem Seats.waiting_eq_none (h : x.Seats inputs S) {i : UInt64} (hi : i ∉ S.indexes) :
    x.board.waiting.get? i = none := by
  rcases hwaiting : x.board.waiting.get? i with _ | p
  · rfl
  · exact absurd (List.mem_of_getElem? ((h.waiting i p).1 hwaiting).1) hi

theorem Seats.length_registrations (h : x.Seats inputs S) :
    x.board.registrations.length = S.indexes.length := by
  rw [← h.indexes, List.length_map]

theorem Seats.register_eq (h : x.Seats inputs S) {i : UInt64} (hi : i ∉ S.indexes) :
    x.board.register i = ⟨x.board.registrations ++ [⟨i, .fresh, none, []⟩],
      x.board.waiting.insert i S.indexes.length⟩ := by
  rw [Switchboard.register, h.waiting_eq_none hi, h.length_registrations]

theorem Seats.moves_turn (h : x.Seats inputs S) (hS : Advances inputs S (.turn c) S') :
    Moves inputs S x (.turn c) S' (x.step (.turn c)) := by
  have hstands := h.stands c
  rw [step_turn]
  rcases hconn : x.connections c with ⟨state, bytes⟩
  rw [hconn] at hstands
  rw [Switchboard.advance]
  cases hS with
  | @claimed _ p i hzero hp =>
    cases hstands with
    | fresh _ =>
      simp only [Switchboard.greet_of_waiting hp.1 ((h.waiting i p).2 hp.2)]
      exact .claimed hzero hp
    | away hne _ => exact absurd hzero hne
    | claimed _ hone => omega
    | serving _ htwo => omega
    | ended _ htwo => omega
  | turned hp =>
    cases hstands with
    | fresh hzero =>
      have hnone : ∀ i, greeting? (inputs c) = some i → x.board.waiting.get? i = none := by
        intro i hgreeting
        rcases hwaiting : x.board.waiting.get? i with _ | p
        · rfl
        · exact absurd ⟨hgreeting, (h.waiting i p).1 hwaiting⟩ (hp hzero p i)
      obtain ⟨e?, hgreet⟩ := Switchboard.greet_of_not_waiting hnone
      simp only [hgreet]
      exact .refused hzero
    | away hne hp => exact .rested hne (fun p hp' => absurd hp' (hp p)) hconn
    | claimed hp hone => exact .connected hp hone
    | serving hp htwo => exact .routed hp htwo hconn
    | ended hp htwo => exact .rested (by omega) (fun _ _ => htwo) hconn

/-- **An occurrence does nothing else.** -/
theorem Seats.moves (h : x.Seats inputs S) (hS : Advances inputs S e S') :
    Moves inputs S x e S' (x.step e) := by
  cases e with
  | register i =>
    cases hS with
    | registered hi =>
      rw [step, h.register_eq hi]
      exact .registered hi
  | turn c => exact h.moves_turn hS
  | look p q =>
    cases hS
    rw [step]
    rcases hr : x.board.registration? p with _ | r
    · exact .idle fun _ hnone => by cases hnone
    · exact .looked hr
  | hangUp p =>
    cases hS
    exact .hungUp
  | command p m =>
    cases hS
    by_cases hconnected : ∃ r c, x.board.registration? p = some r ∧ r.connection? = some c
    · obtain ⟨r, c, hr, hc⟩ := hconnected
      rw [step_command_of_connection hr hc]
      exact .commanded hr hc
    · rw [step_command_of_no_connection fun r hr =>
        Option.eq_none_iff_forall_ne_some.2 fun c hc => hconnected ⟨r, c, hr, hc⟩]
      exact .idle fun _ hnone => by cases hnone

/-! ### One occurrence after the other -/

theorem stands_update {connections : Nat → Connection} {conn : Connection}
    (h : ∀ c', Stands inputs S c' (connections c')) (hc : Stands inputs S' c conn)
    (hturns : ∀ c' ≠ c, S'.turns c' = S.turns c')
    (hplaces : ∀ c' ≠ c, ∀ p, S'.claimant p = some c' ↔ S.claimant p = some c') (c' : Nat) :
    Stands inputs S' c' (Function.update connections c conn c') := by
  rw [Function.update_apply]
  split_ifs with heq
  · rw [heq]
    exact hc
  · exact (h c').congr (hturns c' heq) (hplaces c' heq)

theorem getElem?_snoc_eq_some {α : Type} {l : List α} {a b : α} {k : Nat} :
    (l ++ [a])[k]? = some b ↔ l[k]? = some b ∨ k = l.length ∧ a = b := by
  rcases Nat.lt_trichotomy k l.length with hlt | rfl | hgt
  · simp [List.getElem?_append_left hlt, Nat.ne_of_lt hlt]
  · simp
  · have hnone : l[k]? = none := List.getElem?_eq_none (Nat.le_of_lt hgt)
    have hnone' : (l ++ [a])[k]? = none := List.getElem?_eq_none (by simp; omega)
    simp [hnone, hnone', Nat.ne_of_gt hgt]

theorem Seats.registered (h : x.Seats inputs S) {i : UInt64} (hi : i ∉ S.indexes) :
    Seats inputs (S.register i)
      { x with
        board := ⟨x.board.registrations ++ [⟨i, .fresh, none, []⟩],
          x.board.waiting.insert i S.indexes.length⟩ } := by
  refine ⟨?_, ?_, fun j p => ?_, fun p c hp => ?_, fun c => (h.stands c).congr rfl fun _ => Iff.rfl⟩
  · simp [h.indexes, Standing.register]
  · exact (List.perm_append_singleton i S.indexes).nodup_iff.2 (List.nodup_cons.2 ⟨hi, h.nodup⟩)
  · rw [claimant_register, Standing.register, getElem?_snoc_eq_some]
    simp only [SortedMap.get?_insert, Std.LawfulEqCmp.compare_eq_iff_eq]
    by_cases hj : j = i
    · subst hj
      rw [if_pos rfl, Option.some_inj]
      constructor
      · rintro rfl
        exact ⟨.inr ⟨rfl, rfl⟩, h.claimant_eq_none (Nat.le_refl _)⟩
      · rintro ⟨hold | ⟨rfl, -⟩, -⟩
        · exact absurd (List.mem_of_getElem? hold) hi
        · rfl
    · rw [if_neg hj, h.waiting]
      constructor
      · exact And.imp_left .inl
      · rintro ⟨hold | ⟨-, heq⟩, hfree⟩
        · exact ⟨hold, hfree⟩
        · exact absurd heq.symm hj
  · obtain ⟨hturns, j, hindex, hgreeting⟩ := h.greeted p c hp
    exact ⟨hturns, j, getElem?_snoc_eq_some.2 (.inl hindex), hgreeting⟩

theorem Seats.claimed (h : x.Seats inputs S) {i : UInt64} (hc : S.turns c = 0)
    (hp : S.Offers inputs c p i) : Seats inputs ((S.turn c).claim p c)
      { x with
        board := x.board.assign i
        connections := Function.update x.connections c ⟨.claimed p, behindFirst (inputs c)⟩ } := by
  obtain ⟨hgreeting, hindex, hfree⟩ := hp
  have hnew : ∀ p', S.claimant p' ≠ some c := fun p' hp' => (h.greeted p' c hp').1 hc
  have hplaces : ∀ c' ≠ c, ∀ p', ((S.turn c).claim p c).claimant p' = some c' ↔
      S.claimant p' = some c' := by
    intro c' hne p'
    by_cases heq : p' = p
    · rw [heq, claimant_claim_self, hfree]
      simp [hne.symm]
    · rw [claimant_claim_of_ne heq, claimant_turn]
  refine ⟨h.indexes, h.nodup, fun j p' => ?_, fun p' c' hp' => ?_, ?_⟩
  · change (x.board.waiting.erase i).get? j = some p' ↔ _
    rw [SortedMap.get?_erase, h.waiting, indexes_claim, indexes_turn]
    by_cases heq : p' = p
    · rw [heq, claimant_claim_self, hindex, Option.some_inj]
      constructor
      · rintro ⟨hne, hsame, -⟩
        exact absurd hsame.symm hne
      · rintro ⟨-, hnone⟩
        cases hnone
    · rw [claimant_claim_of_ne heq, claimant_turn]
      refine ⟨And.right, fun hwaits => ⟨?_, hwaits⟩⟩
      rintro rfl
      have hlt := (List.getElem?_eq_some_iff.1 hwaits.1).1
      exact heq ((List.getElem?_inj hlt h.nodup).1 (hwaits.1.trans hindex.symm))
  · rw [turns_claim, indexes_claim, indexes_turn]
    by_cases hne : c' = c
    · subst hne
      rw [turns_turn_self]
      by_cases heq : p' = p
      · exact ⟨Nat.succ_ne_zero _, i, heq ▸ hindex, hgreeting⟩
      · rw [claimant_claim_of_ne heq] at hp'
        exact absurd hp' (hnew p')
    · rw [turns_turn_of_ne hne]
      exact h.greeted p' c' ((hplaces c' hne p').1 hp')
  · refine stands_update h.stands ?_ (fun c' hne => turns_turn_of_ne hne) hplaces
    exact .claimed (claimant_claim_self ..) (by rw [turns_claim, turns_turn_self, hc])

theorem Seats.turned (h : x.Seats inputs S) {board : Switchboard} {conn : Connection}
    (hwaiting : board.waiting = x.board.waiting)
    (hindexes : board.registrations.map (·.index) = x.board.registrations.map (·.index))
    (hconn : Stands inputs (S.turn c) c conn) :
    Seats inputs (S.turn c)
      { x with board, connections := Function.update x.connections c conn } := by
  refine ⟨hindexes.trans h.indexes, h.nodup, fun i p => ?_, fun p c' hp => ⟨?_, ?_⟩, ?_⟩
  · rw [hwaiting]
    exact h.waiting i p
  · by_cases hne : c' = c
    · rw [hne, turns_turn_self]
      exact Nat.succ_ne_zero _
    · rw [turns_turn_of_ne hne]
      exact (h.greeted p c' hp).1
  · exact (h.greeted p c' hp).2
  · exact stands_update h.stands hconn (fun c' hne => turns_turn_of_ne hne) fun _ _ _ => Iff.rfl

/-- Queues and commands do not matter. -/
theorem Seats.of_board (h : x.Seats inputs S) {board : Switchboard} {taken accepted}
    (hwaiting : board.waiting = x.board.waiting)
    (hindexes : board.registrations.map (·.index) = x.board.registrations.map (·.index)) :
    Seats inputs S ⟨board, x.connections, taken, accepted⟩ := by
  refine ⟨hindexes.trans h.indexes, h.nodup, fun i p => ?_, h.greeted, h.stands⟩
  rw [hwaiting]
  exact h.waiting i p

/-- **Everyone stays where they should be.** -/
theorem Seats.step (h : x.Seats inputs S) (hx : Moves inputs S x e S' x') : x'.Seats inputs S' := by
  have htwo : ∀ {c}, 2 ≤ S.turns c → 2 ≤ (S.turn c).turns c := fun hc => by
    rw [turns_turn_self]
    exact Nat.le_succ_of_le hc
  cases hx with
  | registered hi => exact h.registered hi
  | claimed hc hp => exact h.claimed hc hp
  | refused hc => exact h.turned rfl rfl (.away (by simp) fun p hp => (h.greeted p _ hp).1 hc)
  | connected hp hc =>
    exact h.turned rfl (Switchboard.indexes_modify fun _ => rfl)
      (.serving hp (by rw [turns_turn_self, hc]))
  | @routed c p bytes hp hc hconn =>
    obtain ⟨f, hboard, -, hstate⟩ :=
      x.board.route_cases p (Frame.read Binary.decodeWorker bytes)
    rw [hboard]
    refine h.turned rfl (Switchboard.indexes_modify fun _ => rfl) ?_
    rcases hstate with hstate | ⟨e?, hstate⟩
    · rw [hstate]
      exact .serving hp (htwo hc)
    · rw [hstate]
      exact .ended hp (htwo hc)
  | @rested c e? rest hne hp hconn =>
    refine h.turned rfl rfl ?_
    by_cases hplace : ∃ p, S.claimant p = some c
    · obtain ⟨p, hp'⟩ := hplace
      exact .ended hp' (htwo (hp p hp'))
    · exact .away (by simp) fun p hp' => hplace ⟨p, hp'⟩
  | looked _ => exact h.of_board rfl (Switchboard.indexes_modify fun _ => rfl)
  | hungUp => exact h.of_board rfl (Switchboard.indexes_modify fun _ => rfl)
  | commanded _ _ => exact h.of_board rfl (Switchboard.indexes_modify fun _ => rfl)
  | idle _ => exact h

theorem seats_start (inputs : Nat → List UInt8) :
    (start inputs).Seats inputs (.ofList inputs []) := by
  refine ⟨rfl, List.nodup_nil, fun i p => ?_, fun p c hc => ?_, fun c => .fresh rfl⟩
  · rw [start, Switchboard.idle, SortedMap.get?_empty]
    simp [Standing.ofList, Docket.ofList]
  · cases hc

/-- **Whatever has happened, everyone is where they should be**, if no index was registered
twice. -/
theorem seats_run {es : List Occurrence} (hnodup : (Docket.ofList es).indexes.Nodup) :
    (run inputs es).Seats inputs (.ofList inputs es) := by
  induction es using List.reverseRecOn with
  | nil => exact seats_start inputs
  | append_singleton es e ih =>
    have hseats := ih (Docket.nodup_of_snoc hnodup)
    rw [run_snoc]
    exact hseats.step (hseats.moves (advances_ofList hnodup))

end Hub

end FuzzCampaign
