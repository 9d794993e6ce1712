import FuzzCampaign.Campaign.Run

/-!
# What actions come to

An action is described by what holds of its value and of the world when it ends, and by what holds
when it stops. There is a rule for each way to build an action, and rules with an invariant for the
loops.

* `Action.outcome_bind`, `outcome_attempt`, `outcome_outside`, `outcome_whole`: outcomes of
  actions that are made of others;
* `Action.Yields`, `Action.Yields.mono`: what an action comes to;
* `Action.yields_bind` and the other rules for single steps;
* `Action.yields_repeatUntil`, `yields_mapM`, `yields_forM`: loops keep an invariant;
* `Action.Gives`: what holds if the action ends with a value, and the same rules for it;
* `Action.Keeps`: actions that keep a property of the world;
* `Action.Finishes`: actions that do not run out of rounds.
-/

namespace FuzzCampaign

namespace Action

variable {σ α β : Type}

/-! ## Outcomes -/

@[simp] theorem outcome_pure (a : α) (s : σ) : outcome (pure a : Action σ α) s = (.ok a, s) := rfl

@[simp] theorem outcome_throw (stop : Stop) (s : σ) :
    outcome (throw stop : Action σ α) s = (.error stop, s) := rfl

@[simp] theorem outcome_ask (q : StateM σ α) (s : σ) :
    outcome (ask q) s = (.ok (q.run s).1, (q.run s).2) := rfl

@[simp] theorem outcome_get (s : σ) : outcome (get : Action σ σ) s = (.ok s, s) := rfl

@[simp] theorem outcome_modify (f : σ → σ) (s : σ) :
    outcome (modify f : Action σ PUnit) s = (.ok ⟨⟩, f s) := rfl

theorem outcome_bind (act : Action σ α) (f : α → Action σ β) (s : σ) :
    outcome (act >>= f) s = match outcome act s with
      | (.ok a, s') => outcome (f a) s'
      | (.error stop, s') => (.error stop, s') := by
  change (ExceptT.bindCont f (act.run.run s).1).run (act.run.run s).2 = _
  unfold outcome
  rcases act.run.run s with ⟨_ | a, s'⟩ <;> rfl

theorem outcome_attempt (act : Action σ α) (s : σ) :
    outcome (attempt act) s = match outcome act s with
      | (.ok a, s') => (.ok (.ok a), s')
      | (.error (.error e), s') => (.ok (.error e), s')
      | (.error stop, s') => (.error stop, s') := by
  unfold outcome attempt
  simp only [ExceptT.run_mk, StateT.run_bind]
  rcases act.run.run s with ⟨(_ | _ | _) | a, s'⟩ <;> rfl

theorem outcome_outside (act : Action σ α) (o : Orchestrator σ) :
    outcome (Orchestrator.outside act) o =
      ((outcome act o.world).1, { o with world := (outcome act o.world).2 }) := rfl

theorem outcome_whole (act : Action (Orchestrator σ) α) (s : σ) :
    outcome (Orchestrator.whole act) s =
      ((outcome act (.start s)).1, (outcome act (.start s)).2.world) := rfl

/-- **Two actions with the same outcomes are the same.** -/
theorem ext_outcome {act act' : Action σ α} (h : ∀ s, outcome act s = outcome act' s) :
    act = act' :=
  funext h

/-! ## Steps -/

/-- From `s`, an action ends with a value and a world of which `Q` holds, or stops in a world of
which `E` holds. -/
def Yields (act : Action σ α) (s : σ) (Q : α → σ → Prop) (E : Stop → σ → Prop) : Prop :=
  match outcome act s with
  | (.ok a, s') => Q a s'
  | (.error stop, s') => E stop s'

variable {act : Action σ α} {s : σ} {Q Q' : α → σ → Prop} {E E' : Stop → σ → Prop}

theorem Yields.mono (h : Yields act s Q E) (hQ : ∀ a s, Q a s → Q' a s)
    (hE : ∀ stop s, E stop s → E' stop s) : Yields act s Q' E' := by
  unfold Yields at h ⊢
  rcases hs : outcome act s with ⟨_ | a, s'⟩
  · rw [hs] at h
    exact hE _ _ h
  · rw [hs] at h
    exact hQ _ _ h

theorem Yields.imp (h : Yields act s Q E) (hQ : ∀ a s, Q a s → Q' a s) : Yields act s Q' E :=
  h.mono hQ fun _ _ => id

theorem Yields.of_ok (h : Yields act s Q E) {a : α} {s' : σ} (hs : outcome act s = (.ok a, s')) :
    Q a s' := by
  unfold Yields at h
  rwa [hs] at h

theorem Yields.of_error (h : Yields act s Q E) {stop : Stop} {s' : σ}
    (hs : outcome act s = (.error stop, s')) : E stop s' := by
  unfold Yields at h
  rwa [hs] at h

theorem Yields.final {P : σ → Prop} (h : Yields act s (fun _ => P) fun _ => P) :
    P (outcome act s).2 := by
  unfold Yields at h
  rcases hs : outcome act s with ⟨_ | a, s'⟩
  · rw [hs] at h
    exact h
  · rw [hs] at h
    exact h

@[simp] theorem yields_pure (a : α) : Yields (pure a) s Q E ↔ Q a s := Iff.rfl

@[simp] theorem yields_throw (stop : Stop) : Yields (throw stop) s Q E ↔ E stop s := Iff.rfl

@[simp] theorem yields_ask (q : StateM σ α) :
    Yields (ask q) s Q E ↔ Q (q.run s).1 (q.run s).2 := Iff.rfl

@[simp] theorem yields_get {Q : σ → σ → Prop} : Yields (get : Action σ σ) s Q E ↔ Q s s := Iff.rfl

theorem yields_bind {f : α → Action σ β} {Q : β → σ → Prop} :
    Yields (act >>= f) s Q E ↔ Yields act s (fun a s' => Yields (f a) s' Q E) E := by
  simp only [Yields, outcome_bind]
  rcases outcome act s with ⟨_ | a, s'⟩ <;> rfl

theorem yields_attempt {Q : Except CampaignError α → σ → Prop} :
    Yields (attempt act) s Q E ↔
      Yields act s (fun a => Q (.ok a)) fun stop => match stop with
        | .error e => Q (.error e)
        | stop => E stop := by
  simp only [Yields, outcome_attempt]
  rcases outcome act s with ⟨(_ | _ | _) | a, s'⟩ <;> rfl

theorem yields_perform {q : StateM σ (Except CampaignError α)} :
    Yields (perform q) s Q E ↔ match q.run s with
      | (.ok a, s') => Q a s'
      | (.error e, s') => E (.error e) s' := by
  rw [perform, yields_bind, yields_ask]
  rcases q.run s with ⟨_ | a, s'⟩ <;> rfl

theorem yields_lift {r : Except CampaignError α} :
    Yields (lift r) s Q E ↔ match r with
      | .ok a => Q a s
      | .error e => E (.error e) s := by
  cases r <;> rfl

theorem yields_outside {o : Orchestrator σ} {Q : α → Orchestrator σ → Prop}
    {E : Stop → Orchestrator σ → Prop} :
    Yields (Orchestrator.outside act) o Q E ↔
      Yields act o.world (fun a w => Q a { o with world := w })
        fun stop w => E stop { o with world := w } := by
  simp only [Yields, outcome_outside]
  rcases outcome act o.world with ⟨_ | a, s'⟩ <;> rfl

theorem yields_whole {act : Action (Orchestrator σ) α} :
    Yields (Orchestrator.whole act) s Q E ↔
      Yields act (.start s) (fun a o => Q a o.world) fun stop o => E stop o.world := by
  simp only [Yields, outcome_whole]
  rcases outcome act (.start s) with ⟨_ | a, s'⟩ <;> rfl

theorem Yields.and (h : Yields act s Q E) (h' : Yields act s Q' E') :
    Yields act s (fun a s' => Q a s' ∧ Q' a s') fun stop s' => E stop s' ∧ E' stop s' := by
  unfold Yields at h h' ⊢
  rcases hs : outcome act s with ⟨_ | a, s'⟩
  · rw [hs] at h h'
    exact ⟨h, h'⟩
  · rw [hs] at h h'
    exact ⟨h, h'⟩

/-! ## Loops -/

/-- **A loop keeps an invariant of its body.** -/
theorem yields_repeatUntil {body : Action σ (Option α)} (inv : σ → Prop)
    (hbody : ∀ s, inv s → Yields body s (fun r s' => match r with
      | some a => Q a s'
      | none => inv s') E)
    (hrounds : ∀ s, inv s → E .outOfRounds s) (rounds : Nat) (hs : inv s) :
    Yields (repeatUntil body rounds) s Q E := by
  induction rounds generalizing s with
  | zero => exact hrounds s hs
  | succ rounds ih =>
    rw [repeatUntil, yields_bind]
    refine (hbody s hs).imp fun r s' h => ?_
    cases r with
    | some a => exact h
    | none => exact ih h

/-- An invariant of `mapM`, on what has been made and what is left. -/
theorem yields_mapM {f : α → Action σ β} (inv : List β → List α → σ → Prop)
    (hf : ∀ made a left s, inv made (a :: left) s →
      Yields (f a) s (fun b => inv (made ++ [b]) left) E)
    (l : List α) (made : List β) (hs : inv made l s) :
    Yields (l.mapM f) s (fun bs => inv (made ++ bs) []) E := by
  induction l generalizing s made with
  | nil => simpa using hs
  | cons a l ih =>
    rw [List.mapM_cons, yields_bind]
    refine (hf made a l s hs).imp fun b s' h => ?_
    rw [yields_bind]
    refine (ih (made ++ [b]) h).imp fun bs s'' h => ?_
    simpa using h

/-- An invariant of `forM`, on what is left. -/
theorem yields_forM {f : α → Action σ PUnit} (inv : List α → σ → Prop)
    (hf : ∀ a left s, inv (a :: left) s → Yields (f a) s (fun _ => inv left) E)
    (l : List α) (hs : inv l s) : Yields (l.forM f) s (fun _ => inv []) E := by
  induction l generalizing s with
  | nil => exact hs
  | cons a l ih =>
    change Yields (f a >>= fun _ => l.forM f) s _ E
    rw [yields_bind]
    exact (hf a l s hs).imp fun _ _ h => ih h

/-! ## Values -/

/-- From `s`, if an action ends with a value, then `Q` holds of it and of the world. -/
def Gives (act : Action σ α) (s : σ) (Q : α → σ → Prop) : Prop :=
  Yields act s Q fun _ _ => True

theorem gives_iff : Gives act s Q ↔ ∀ a s', outcome act s = (.ok a, s') → Q a s' := by
  unfold Gives Yields
  rcases hs : outcome act s with ⟨_ | b, s''⟩
  · simp
  · constructor
    · rintro h a s' ⟨⟩
      exact h
    · intro h
      exact h b s'' rfl

theorem Yields.gives (h : Yields act s Q E) : Gives act s Q :=
  h.mono (fun _ _ => id) fun _ _ _ => trivial

theorem Gives.imp (h : Gives act s Q) (hQ : ∀ a s, Q a s → Q' a s) : Gives act s Q' :=
  Yields.imp h hQ

theorem Gives.and (h : Gives act s Q) (h' : Gives act s Q') :
    Gives act s fun a s' => Q a s' ∧ Q' a s' :=
  (Yields.and h h').mono (fun _ _ => id) fun _ _ _ => trivial

theorem gives_true : Gives act s fun _ _ => True :=
  gives_iff.2 fun _ _ _ => trivial

@[simp] theorem gives_pure (a : α) : Gives (pure a) s Q ↔ Q a s := Iff.rfl

@[simp] theorem gives_throw (stop : Stop) : Gives (throw stop) s Q ↔ True := Iff.rfl

@[simp] theorem gives_ask (q : StateM σ α) :
    Gives (ask q) s Q ↔ Q (q.run s).1 (q.run s).2 := Iff.rfl

@[simp] theorem gives_get {Q : σ → σ → Prop} : Gives (get : Action σ σ) s Q ↔ Q s s := Iff.rfl

@[simp] theorem gives_modify {f : σ → σ} {Q : PUnit → σ → Prop} :
    Gives (modify f : Action σ PUnit) s Q ↔ Q ⟨⟩ (f s) := Iff.rfl

theorem gives_bind {f : α → Action σ β} {Q : β → σ → Prop} :
    Gives (act >>= f) s Q ↔ Gives act s fun a s' => Gives (f a) s' Q :=
  yields_bind

theorem gives_bind_never {f : α → Action σ β} {Q : β → σ → Prop} (h : ∀ a s, Gives (f a) s Q) :
    Gives (act >>= f) s Q :=
  gives_bind.2 (gives_true.imp fun a s _ => h a s)

theorem gives_attempt {Q : Except CampaignError α → σ → Prop}
    (h : Gives act s fun a => Q (.ok a)) (he : ∀ e s, Q (.error e) s) :
    Gives (attempt act) s Q := by
  rw [Gives, yields_attempt]
  refine h.mono (fun _ _ => id) fun stop s' _ => ?_
  cases stop with
  | error e => exact he e s'
  | abort message => trivial
  | outOfRounds => trivial

theorem gives_perform {q : StateM σ (Except CampaignError α)} :
    Gives (perform q) s Q ↔ ∀ a, (q.run s).1 = .ok a → Q a (q.run s).2 := by
  rw [Gives, yields_perform]
  rcases q.run s with ⟨_ | a, s'⟩ <;> simp

theorem gives_outside {o : Orchestrator σ} {Q : α → Orchestrator σ → Prop} :
    Gives (Orchestrator.outside act) o Q ↔
      Gives act o.world fun a w => Q a { o with world := w } :=
  yields_outside

theorem gives_repeatUntil {body : Action σ (Option α)} (inv : σ → Prop)
    (hbody : ∀ s, inv s → Gives body s fun r s' => match r with
      | some a => Q a s'
      | none => inv s') (rounds : Nat) (hs : inv s) :
    Gives (repeatUntil body rounds) s Q :=
  yields_repeatUntil inv hbody (fun _ _ => trivial) rounds hs

theorem gives_mapM {f : α → Action σ β} (inv : List β → List α → σ → Prop)
    (hf : ∀ made a left s, inv made (a :: left) s →
      Gives (f a) s fun b => inv (made ++ [b]) left)
    (l : List α) (hs : inv [] l s) :
    Gives (l.mapM f) s fun bs => inv bs [] := by
  have h := yields_mapM inv hf l [] hs
  simp only [List.nil_append] at h
  exact h

/-! ## Actions that keep something -/

/-- From wherever `P` holds, `P` holds when the action ends with a value. -/
def Keeps (P : σ → Prop) (act : Action σ α) : Prop := ∀ s, P s → Gives act s fun _ => P

variable {P : σ → Prop}

theorem keeps_pure (a : α) : Keeps P (pure a) := fun _ h => h

theorem keeps_throw (stop : Stop) : Keeps P (throw stop : Action σ α) := fun _ _ => trivial

theorem keeps_ask {q : StateM σ α} (h : ∀ s, P s → P (q.run s).2) : Keeps P (ask q) := h

theorem keeps_perform {q : StateM σ (Except CampaignError α)} (h : ∀ s, P s → P (q.run s).2) :
    Keeps P (perform q) :=
  fun s hs => gives_perform.2 fun _ _ => h s hs

theorem keeps_bind {f : α → Action σ β} (h : Keeps P act) (hf : ∀ a, Keeps P (f a)) :
    Keeps P (act >>= f) :=
  fun s hs => gives_bind.2 ((h s hs).imp fun a s' => hf a s')

theorem keeps_repeatUntil {body : Action σ (Option α)} (h : Keeps P body) (rounds : Nat) :
    Keeps P (repeatUntil body rounds) :=
  fun _ hs => gives_repeatUntil P (fun s hs => (h s hs).imp fun r _ h => by cases r <;> exact h)
    rounds hs

/-! ## Actions that finish -/

/-- Wherever it begins, an action ends with a value, with an error, or because it aborts. -/
def Finishes (act : Action σ α) : Prop :=
  ∀ s, Yields act s (fun _ _ => True) fun stop _ => stop ≠ .outOfRounds

theorem finishes_iff : Finishes act ↔ ∀ s, (outcome act s).1 ≠ .error .outOfRounds := by
  refine forall_congr' fun s => ?_
  unfold Yields
  rcases outcome act s with ⟨stop | a, s'⟩ <;> simp

theorem finishes_pure (a : α) : Finishes (pure a : Action σ α) := fun _ => trivial

theorem finishes_throw {stop : Stop} (h : stop ≠ .outOfRounds) :
    Finishes (throw stop : Action σ α) :=
  fun _ => h

theorem finishes_ask (q : StateM σ α) : Finishes (ask q) := fun _ => trivial

theorem Finishes.bind {f : α → Action σ β} (h : Finishes act) (hf : ∀ a, Finishes (f a)) :
    Finishes (act >>= f) :=
  fun s => yields_bind.2 ((h s).imp fun a s' _ => hf a s')

theorem finishes_lift (r : Except CampaignError α) : Finishes (lift r : Action σ α) := by
  cases r with
  | ok a => exact finishes_pure a
  | error e => exact finishes_throw nofun

theorem finishes_perform (q : StateM σ (Except CampaignError α)) : Finishes (perform q) :=
  (finishes_ask q).bind fun r => finishes_lift r

theorem Finishes.attempt (h : Finishes act) : Finishes (attempt act) := by
  intro s
  refine yields_attempt.2 ((h s).mono (fun _ _ _ => trivial) fun stop s' hstop => ?_)
  cases stop with
  | error e => trivial
  | abort message => exact hstop
  | outOfRounds => exact hstop

end Action

end FuzzCampaign
