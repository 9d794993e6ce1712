import FuzzCampaign.Proofs.Preparation
import Mathlib.Algebra.Order.Floor.Div

/-!
# Attempts to connect

A worker that connects to a node which is starting tries until there is an answer, a failure that a
start does not explain, an exit of the node, or no time left. If its pauses take their time, the
time that it has bounds the number of its attempts.

* `triesIn`: the attempts in a record;
* `NodeHost.Ticks`: a clock that goes on; `Patience.tries`: how many attempts there is time for;
* `Patience.Followed`: what is known of attempts that follow a policy;
* **`connectPatiently_followed`**: the policy is followed in every world;
* **`Worker.run_finishes`**: a worker with enough rounds comes to its end.
-/

namespace FuzzCampaign

variable {σ : Type}

/-! ## Attempts in a record -/

/-- Whether it begins an attempt to connect. -/
def WorkerAct.isTry : WorkerAct → Bool
  | .opened .. => true
  | _ => false

/-- How many attempts to connect were made. -/
def triesIn (acts : List WorkerAct) : Nat := acts.countP WorkerAct.isTry

@[simp] theorem triesIn_nil : triesIn [] = 0 := rfl

@[simp] theorem triesIn_append (acts l : List WorkerAct) :
    triesIn (acts ++ l) = triesIn acts + triesIn l :=
  List.countP_append

theorem Attempted.tries {url : String} {l : List WorkerAct} {x : Except CampaignError Unit}
    (h : Attempted url l x) : triesIn l = 1 := by
  cases h <;> rfl

/-! ## The clock -/

/-- A question does not turn the clock back. -/
def Forwards (clock : σ → Nat) {α : Type} (q : StateM σ α) : Prop :=
  ∀ s, clock s ≤ clock (q.run s).2

section

variable {clock : σ → Nat} {α β : Type}

theorem forwards_pure (a : α) : Forwards clock (pure a : StateM σ α) := fun _ => Nat.le_refl _

theorem Forwards.bind {q : StateM σ α} {f : α → StateM σ β} (h : Forwards clock q)
    (hf : ∀ a, Forwards clock (f a)) : Forwards clock (q >>= f) :=
  fun s => Nat.le_trans (h s) (hf _ _)

theorem Mirrors.forwards {τ : Type} {view : τ → σ} {q : StateM τ α} {q' : StateM σ α}
    (hmirrors : Mirrors view q q') (h : Forwards clock q') :
    Forwards (fun t => clock (view t)) q :=
  fun t => (h (view t)).trans_eq (congrArg (fun r => clock r.2) (hmirrors t))

end

/-- The clock of a node's world goes on: in a pause by its length at least, and never back. -/
structure NodeHost.Ticks (clock : σ → Nat) (host : NodeHost σ) : Prop where
  now_eq : ∀ s, (host.now.run s).1 = clock s
  now : Forwards clock host.now
  openConnection : ∀ url, Forwards clock (host.openConnection url)
  exchange : ∀ text, Forwards clock (host.exchange text)
  nodeStatus : Forwards clock host.nodeStatus
  sleep : ∀ d s, clock s + d.nanoseconds ≤ clock ((host.sleep d).run s).2

/-- What answers as a world does has its clock. -/
theorem NodeHost.Ticks.of_mirrors {τ : Type} {view : τ → σ} {host : NodeHost τ} {host' : NodeHost σ}
    {clock : σ → Nat} (h : host'.Ticks clock) (hmirrors : host.Mirrors view host') :
    host.Ticks fun t => clock (view t) where
  now_eq t := (congrArg Prod.fst (hmirrors.now t)).symm.trans (h.now_eq (view t))
  now := hmirrors.now.forwards h.now
  openConnection url := (hmirrors.openConnection url).forwards (h.openConnection url)
  exchange text := (hmirrors.exchange text).forwards (h.exchange text)
  nodeStatus := hmirrors.nodeStatus.forwards h.nodeStatus
  sleep d t := (h.sleep d (view t)).trans_eq
    (congrArg (fun r => clock r.2) (hmirrors.sleep d t))

section

variable {clock : σ → Nat} {host : NodeHost σ} (h : host.Ticks clock)
include h

theorem NodeHost.Ticks.noted : host.noted.Ticks fun r => clock r.world :=
  h.of_mirrors host.mirrors_noted

theorem forwards_connectAttempt (url : String) : Forwards clock (connectAttempt host url) := by
  refine (h.openConnection url).bind fun r => ?_
  rcases r with e | _
  · exact forwards_pure _
  · refine Forwards.bind ?_ fun r => ?_
    · refine Forwards.bind ((h.exchange _).bind fun r => ?_) fun _ => forwards_pure _
      rcases r with e | raw
      · exact forwards_pure _
      · dsimp only
        split <;> exact forwards_pure _
    · rcases r with ⟨_ | _, _⟩ <;> exact forwards_pure _

open FuzzCampaign.Action

/-- A round after which there is another one is in time, and lasts as long as its pause. -/
theorem gives_connectRound (url : String) (policy : Patience) (network : Network) (start : Nat)
    (s : σ) :
    Gives (connectRound host url policy network start) s fun r s' => r = none →
      clock s < start + policy.timeout.nanoseconds ∧
        clock s + policy.pollInterval.nanoseconds ≤ clock s' := by
  have hattempt := forwards_connectAttempt h url s
  rw [connectRound, gives_bind, gives_ask]
  rcases htry : (connectAttempt host url).run s with ⟨e | c, s₁⟩
  · rw [htry] at hattempt
    change Gives (if e.isTransportFault = true then _ else _) _ _
    split_ifs
    · have hstatus := h.nodeStatus s₁
      rw [gives_bind, gives_ask]
      rcases hlook : host.nodeStatus.run s₁ with ⟨_ | status, s₂⟩
      · rw [hlook] at hstatus
        have hnow := h.now s₂
        change Gives (ask host.now >>= _) _ _
        rw [gives_bind, gives_ask, h.now_eq]
        split_ifs with hlate
        · trivial
        · rintro -
          have hsleep := h.sleep policy.pollInterval (host.now.run s₂).2
          have hbefore : clock s ≤ clock s₂ := Nat.le_trans hattempt hstatus
          change ¬ _ ≤ clock s₂ - start at hlate
          refine ⟨by omega, ?_⟩
          exact Nat.le_trans (Nat.add_le_add_right (Nat.le_trans hbefore hnow) _) hsleep
      · trivial
    · trivial
  · exact nofun

end

/-! ## The number of attempts -/

/-- How many attempts there is time for, after the first. -/
def Patience.tries (policy : Patience) : Nat :=
  policy.timeout.nanoseconds ⌈/⌉ policy.pollInterval.nanoseconds

theorem Patience.lt_tries {policy : Patience} (hpause : 0 < policy.pollInterval.nanoseconds)
    {k : Nat} (h : policy.pollInterval.nanoseconds * k < policy.timeout.nanoseconds) :
    k < policy.tries :=
  Nat.lt_of_not_le fun hle => Nat.not_le_of_lt h ((ceilDiv_le_iff_le_mul hpause).1 hle)

open FuzzCampaign.Action Recorded

theorem adds_connectRound_tries (host : NodeHost σ) (url : String) (policy : Patience)
    (network : Network) (start : Nat) :
    Adds (connectRound host.noted url policy network start) (fun _ l => triesIn l = 1)
      fun stop l => triesIn l = 1 ∧ stop ≠ .outOfRounds := by
  refine (adds_ask (E := fun _ _ => False) (notes_connectAttempt host url)).bind ?_
    fun _ _ => False.elim
  rintro x l ⟨hattempted, -⟩
  have htries (l' : List WorkerAct) : triesIn (l ++ l') = 1 ↔ triesIn l' = 0 := by
    rw [triesIn_append, hattempted.tries]
    omega
  simp only [htries]
  rcases x with e | c
  · change Adds (if e.isTransportFault = true then _ else _) _ _
    split_ifs
    · refine adds_noting_bind fun status? => ?_
      rcases status? with _ | status
      · refine adds_noting_bind fun now => ?_
        split_ifs
        · exact adds_throw ⟨rfl, nofun⟩
        · rw [NodeHost.noted_sleep]
          exact adds_noting_bind fun _ => adds_pure rfl
      · exact adds_throw ⟨rfl, nofun⟩
    · exact adds_throw ⟨rfl, nofun⟩
  · exact adds_pure rfl

theorem adds_connectRounds_tried (host : NodeHost σ) (url : String) (policy : Patience)
    (network : Network) (start : Nat) {rounds : Nat} (hrounds : 0 < rounds) :
    Adds (repeatUntil (connectRound host.noted url policy network start) rounds)
      (fun _ l => 0 < triesIn l) fun _ l => 0 < triesIn l := by
  obtain ⟨n, rfl⟩ := Nat.exists_eq_add_of_lt hrounds
  refine (adds_connectRound_tries host url policy network start).bind ?_ fun _ _ h => by omega
  rintro c l hone
  have hpositive (l' : List WorkerAct) : 0 < triesIn (l ++ l') := by
    rw [triesIn_append]
    omega
  cases c with
  | some c => exact adds_pure (hpositive [])
  | none =>
    exact (Worker.adds_connectRounds host url policy network start _).mono
      (fun _ l' _ => hpositive l') fun _ l' _ => hpositive l'

/-- As long as there is time for them, attempts are made; `k` pauses have been made before. -/
theorem yields_connectRounds {clock : σ → Nat} {host : NodeHost σ} (h : host.Ticks clock)
    (url : String) {policy : Patience} (hpause : 0 < policy.pollInterval.nanoseconds)
    (network : Network) (start : Nat) (n : Nat) {k : Nat} {r : Recorded WorkerAct σ}
    (hk : k ≤ policy.tries)
    (hclock : start + policy.pollInterval.nanoseconds * k ≤ clock r.world) :
    Yields (repeatUntil (connectRound host.noted url policy network start) n) r
      (fun _ r' => ∃ l, r'.deeds = r.deeds ++ l ∧ triesIn l + k ≤ policy.tries + 1)
      fun stop r' => ∃ l, r'.deeds = r.deeds ++ l ∧ triesIn l + k ≤ policy.tries + 1 ∧
        (stop = .outOfRounds → n + k ≤ policy.tries) := by
  induction n generalizing k r with
  | zero =>
    refine ⟨[], (List.append_nil _).symm, ?_, fun _ => ?_⟩
    · rw [triesIn_nil]
      omega
    · omega
  | succ n ih =>
    rw [repeatUntil, yields_bind]
    have htime := gives_connectRound h.noted url policy network start r
    have htries := adds_connectRound_tries host url policy network start r
    refine (Yields.and htime htries).mono ?_ ?_
    · rintro c r' ⟨hnext, l, hl, hone⟩
      cases c with
      | some c => exact ⟨l, hl, by omega⟩
      | none =>
        obtain ⟨hlate, hpassed⟩ := hnext rfl
        have hlt : k < policy.tries := Patience.lt_tries hpause (by omega)
        refine (ih (k := k + 1) hlt ?_).mono ?_ ?_
        · rw [Nat.mul_succ]
          omega
        · rintro c r'' ⟨l', hl', hle⟩
          refine ⟨l ++ l', by rw [hl', hl, List.append_assoc], ?_⟩
          rw [triesIn_append]
          omega
        · rintro stop r'' ⟨l', hl', hle, hstop⟩
          refine ⟨l ++ l', by rw [hl', hl, List.append_assoc], ?_, fun h => ?_⟩
          · rw [triesIn_append]
            omega
          · have := hstop h
            omega
    · rintro stop r' ⟨-, l, hl, hone, hstop⟩
      exact ⟨l, hl, by omega, fun h => absurd h hstop⟩

/-! ## The policy -/

/-- What is known of attempts that follow a policy: `l` is what was asked since `start`, and `r` is
how they end. -/
structure Patience.Followed (policy : Patience) (host : NodeHost σ) (url : String)
    (network : Network) (rounds start : Nat) (l : List WorkerAct) (r : Except Stop RpcClient) :
    Prop where
  /-- One attempt after another, up to the first that is not repeated. -/
  course : Connecting url policy network start l (r.map fun _ => ())
  client : ∀ c, r = .ok c → c = (RpcClient.connect url).next
  tried : 0 < rounds → 0 < triesIn l
  /-- If pauses take their time, there are no more attempts than fit into the time, and one. -/
  bounded : ∀ clock, host.Ticks clock → 0 < policy.pollInterval.nanoseconds →
    triesIn l ≤ policy.tries + 1 ∧ (policy.tries < rounds → r ≠ .error .outOfRounds)

theorem connectRounds_followed (host : NodeHost σ) (url : String) (policy : Patience)
    (network : Network) (rounds start : Nat) (r : Recorded WorkerAct σ)
    (hstart : ∀ clock, host.Ticks clock → start ≤ clock r.world) :
    ∃ l, ((repeatUntil (connectRound host.noted url policy network start) rounds).outcome r).2.deeds
        = r.deeds ++ l ∧
      policy.Followed host url network rounds start l
        ((repeatUntil (connectRound host.noted url policy network start) rounds).outcome r).1 := by
  have hcourse := Worker.adds_connectRounds host url policy network start rounds r
  have htried (h : 0 < rounds) := adds_connectRounds_tried host url policy network start h r
  have hbounded (clock : σ → Nat) (h : host.Ticks clock)
      (hpause : 0 < policy.pollInterval.nanoseconds) :=
    yields_connectRounds h url hpause network start rounds (r := r) (Nat.zero_le _)
      (by rw [Nat.mul_zero]; exact hstart clock h)
  rcases hrun : (repeatUntil (connectRound host.noted url policy network start) rounds).outcome r
    with ⟨stop | c, r'⟩
  · obtain ⟨l, hl, hconnecting⟩ := hcourse.of_error hrun
    refine ⟨l, hl, hconnecting, nofun, fun hrounds => ?_, fun clock h hpause => ?_⟩
    · obtain ⟨l', hl', hpositive⟩ := (htried hrounds).of_error hrun
      rwa [List.append_cancel_left (hl.symm.trans hl')]
    · obtain ⟨l', hl', hle, hstop⟩ := (hbounded clock h hpause).of_error hrun
      rw [List.append_cancel_left (hl.symm.trans hl')]
      refine ⟨hle, fun hrounds hout => ?_⟩
      exact Nat.not_le_of_lt hrounds (hstop (Except.error.inj hout))
  · obtain ⟨l, hl, hconnecting, hclient⟩ := hcourse.of_ok hrun
    refine ⟨l, hl, hconnecting, fun c' hc => ?_, fun hrounds => ?_, fun clock h hpause => ?_⟩
    · rw [← Except.ok.inj hc, hclient]
    · obtain ⟨l', hl', hpositive⟩ := (htried hrounds).of_ok hrun
      rwa [List.append_cancel_left (hl.symm.trans hl')]
    · obtain ⟨l', hl', hle⟩ := (hbounded clock h hpause).of_ok hrun
      rw [List.append_cancel_left (hl.symm.trans hl')]
      exact ⟨hle, nofun⟩

/-- **Connecting follows its policy**, in every world, and a record of what it asks changes nothing.
An attempt is repeated after a failure that a start explains, as long as the node has not exited and
there is time left; the first one that is not repeated decides how the run ends. If pauses take
their time, the time bounds the number of attempts. -/
theorem connectPatiently_followed (host : NodeHost σ) (url : String) (policy : Patience)
    (network : Network) (rounds : Nat) (w : σ) :
    ∃ start l, (connectPatiently host.noted url policy network rounds).outcome ⟨w, []⟩ =
        (((connectPatiently host url policy network rounds).outcome w).1,
          ⟨((connectPatiently host url policy network rounds).outcome w).2,
            .readClock start :: l⟩) ∧
      policy.Followed host url network rounds start l
        ((connectPatiently host url policy network rounds).outcome w).1 := by
  let noted := (connectPatiently host.noted url policy network rounds).outcome ⟨w, []⟩
  have hmirror : (connectPatiently host url policy network rounds).outcome w =
      (noted.1, noted.2.world) :=
    Worker.mirrors_connectPatiently host.mirrors_noted url policy network rounds ⟨w, []⟩
  obtain ⟨l, hl, hfollowed⟩ := connectRounds_followed host url policy network rounds
    (host.now.run w).1 ⟨(host.now.run w).2, [.readClock (host.now.run w).1]⟩ fun clock h => by
      rw [h.now_eq]
      exact h.now w
  refine ⟨(host.now.run w).1, l, ?_, ?_⟩
  · rw [hmirror]
    exact Prod.ext rfl (congrArg (Recorded.mk noted.2.world) hl)
  · rw [hmirror]
    exact hfollowed

/-- A node that refuses some connections and then answers; the state is how many it still refuses,
and the clock. -/
def slowStart : NodeHost (Nat × Nat) where
  openConnection _ := fun
    | (refusals + 1, clock) =>
      (.error (.io "Connection refused (os error 111)"), refusals, clock)
    | (0, clock) => (.ok (), 0, clock)
  exchange _ := return .ok "\x7b\"jsonrpc\":\"2.0\",\"id\":1,\"result\":\"0x5\"\x7d"
  nodeStatus := return none
  now := return (← get).2
  sleep d := fun (refusals, clock) => ((), refusals, clock + d.nanoseconds)

theorem ticks_slowStart : slowStart.Ticks Prod.snd where
  now_eq _ := rfl
  now _ := Nat.le_refl _
  openConnection _ s := by
    obtain ⟨_ | refusals, clock⟩ := s <;> exact Nat.le_refl _
  exchange _ _ := Nat.le_refl _
  nodeStatus _ := Nat.le_refl _
  sleep _ _ := Nat.le_refl _

theorem tries_default : Patience.default.tries = 100 := by decide +kernel

/-- A node that refuses two connections is connected to, within a hundred and one attempts. -/
theorem connectPatiently_followed_slowStart :
    ∃ start l,
      (connectPatiently slowStart.noted "http://127.0.0.1:8545" .default .hardhat 200).outcome
        ⟨(2, 0), []⟩ =
        (.ok ⟨"http://127.0.0.1:8545", 2⟩, ⟨(0, 200000000), .readClock start :: l⟩) ∧
      triesIn l ≤ 101 := by
  obtain ⟨start, l, hrun, hfollowed⟩ := connectPatiently_followed slowStart
    "http://127.0.0.1:8545" .default .hardhat 200 (2, 0)
  have hbound := (hfollowed.bounded _ ticks_slowStart (by decide +kernel)).1
  rw [tries_default] at hbound
  have houtcome :
      (connectPatiently slowStart "http://127.0.0.1:8545" .default .hardhat 200).outcome (2, 0) =
        (.ok ⟨"http://127.0.0.1:8545", 2⟩, (0, 200000000)) := by decide +kernel
  rw [houtcome] at hrun
  exact ⟨start, l, hrun, hbound⟩

/-! ## Enough rounds -/

/-- If pauses take their time, more rounds than there is time for are enough to connect. -/
theorem finishes_connectPatiently {clock : σ → Nat} {host : NodeHost σ} (h : host.Ticks clock)
    (url : String) {policy : Patience} (hpause : 0 < policy.pollInterval.nanoseconds)
    (network : Network) {rounds : Nat} (hrounds : policy.tries < rounds) :
    Finishes (connectPatiently host url policy network rounds) := by
  refine finishes_iff.2 fun w => ?_
  let noted := (connectPatiently host.noted url policy network rounds).outcome ⟨w, []⟩
  have hmirror : (connectPatiently host url policy network rounds).outcome w =
      (noted.1, noted.2.world) :=
    Worker.mirrors_connectPatiently host.mirrors_noted url policy network rounds ⟨w, []⟩
  obtain ⟨l, -, hfollowed⟩ := connectRounds_followed host url policy network rounds
    (host.now.run w).1 ⟨(host.now.run w).2, [.readClock (host.now.run w).1]⟩ fun clock h => by
      rw [h.now_eq]
      exact h.now w
  rw [hmirror]
  exact (hfollowed.bounded clock h hpause).2 hrounds

theorem WorkerHost.mirrors_recorded_node (host : WorkerHost σ) :
    host.recorded.toNodeHost.Mirrors Recorded.world host.toNodeHost where
  openConnection _ _ := rfl
  exchange _ _ := rfl
  nodeStatus _ := rfl
  now _ := rfl
  sleep _ _ := rfl

namespace Worker

variable (host : WorkerHost σ) (test : TestCase) (body : FuzzBody σ) (task : WorkerTask)
  (retry : Patience) (rounds : Nat)

theorem finishes_resetChain (network : Network) (client : RpcClient) :
    Finishes (resetChain host network client) := by
  refine (finishes_ask _).bind fun r => ?_
  obtain ⟨e | _, client⟩ := r
  · cases e with
    | unsupported _ => exact finishes_pure _
    | _ => exact finishes_throw nofun
  · exact finishes_pure _

theorem finishes_makeProbe (wanted : Bool) (client : RpcClient) :
    Finishes (makeProbe host task wanted client) := by
  unfold makeProbe
  split
  · exact (finishes_ask _).bind fun r => (finishes_lift r.1).bind fun _ => finishes_pure _
  · exact finishes_pure _

section

variable (hconnect : Finishes
  (connectPatiently host.toNodeHost (Network.url task.port) retry task.network rounds))
include hconnect

theorem finishes_setUp : Finishes (setUp host test task retry rounds) := by
  refine hconnect.bind fun client => (finishes_resetChain host task.network client).bind ?_
  intro client
  refine (finishes_perform _).bind fun _ => (finishes_ask _).bind fun _ => ?_
  refine (finishes_perform _).bind fun _ => (finishes_lift _).bind fun wanted => ?_
  exact (finishes_makeProbe host task wanted client).bind fun _ => finishes_pure _

theorem finishes_execute : Finishes (execute host test body task retry rounds) := by
  refine (finishes_ask _).bind fun r => ?_
  cases r with
  | error e => exact finishes_pure _
  | ok _ =>
    refine (finishes_ask _).bind fun _ => ?_
    refine (finishes_setUp host test task retry rounds hconnect).attempt.bind fun r => ?_
    cases r with
    | error e => exact finishes_pure _
    | ok _ => exact (finishes_ask _).bind fun _ => finishes_pure _

end

theorem finishes_reportOutcome (report : Option Envelope) :
    Finishes (reportOutcome host report) := by
  cases report with
  | none =>
    refine (finishes_perform _).bind fun _ => (finishes_perform _).bind fun _ => ?_
    exact (finishes_lift _).bind fun _ => finishes_pure _
  | some e =>
    refine (finishes_lift _).bind fun _ => (finishes_perform _).bind fun _ => ?_
    refine (finishes_perform _).bind fun _ => (finishes_lift _).bind fun _ => ?_
    refine (finishes_perform _).bind fun c => (finishes_lift _).bind fun _ => ?_
    have hlast (state : Settlement) : Finishes (do
        perform (host.send .finished)
        let _ ← lift state.finish
        return WorkerEnd.failed (wantsDebugger c)) :=
      (finishes_perform _).bind fun _ => (finishes_lift _).bind fun _ => finishes_pure _
    split
    · exact (finishes_ask _).bind fun _ => hlast _
    · exact hlast _

/-- **A worker comes to its end**, if pauses take their time and it is given more rounds than there
is time for: it returns, stops with an error, or aborts, and is never still connecting. -/
theorem run_finishes {clock : σ → Nat} (h : host.toNodeHost.Ticks clock)
    (hpause : 0 < retry.pollInterval.nanoseconds) (hrounds : retry.tries < rounds) :
    Finishes (run host test body task retry rounds) := by
  have hconnect :=
    finishes_connectPatiently h (Network.url task.port) hpause task.network hrounds
  refine (finishes_execute host test body task retry rounds hconnect).bind fun r => ?_
  refine (finishes_reportOutcome host r.2).attempt.bind fun result => ?_
  split
  · exact (finishes_ask _).bind fun _ => finishes_lift _
  · exact finishes_lift _

/-- This holds as well where the deeds of the worker are recorded. -/
theorem run_recorded_finishes (body : FuzzBody (Recorded WorkerDeed σ)) {clock : σ → Nat}
    (h : host.toNodeHost.Ticks clock) (hpause : 0 < retry.pollInterval.nanoseconds)
    (hrounds : retry.tries < rounds) :
    Finishes (run host.recorded test body task retry rounds) :=
  run_finishes host.recorded test body task retry rounds
    (h.of_mirrors host.mirrors_recorded_node) hpause hrounds

end Worker

end FuzzCampaign
