import KeyDispatch.Files.Store

/-!
# Steps on a store

A step that reports events and may fail, run on a store that is held as a value. A step that keeps
the store leaves the next step what it found itself, so that the outcome of such steps is that of
their outcomes one after the other.
-/

namespace KeyDispatch

/-- Two steps that may fail succeed if the first one does and then the second. -/
theorem except_bind_eq_ok_iff {ε α β : Type} {x : Except ε α} {f : α → Except ε β} {b : β} :
    x >>= f = .ok b ↔ ∃ a, x = .ok a ∧ f a = .ok b := by
  cases x <;> simp [bind, Except.bind]

namespace LoggedT

variable {σ ε δ α β : Type}

/-- What a step comes to on a store: its events with its outcome, and the store after it. -/
def on (x : LoggedT (StateM σ) ε α) (s : σ) : Logged ε α × σ :=
  (show StateM σ (Logged ε α) from x) s

/-- The outcome of a step on a store. -/
def outcome (x : LoggedT (StateM σ) ε α) (s : σ) : Except ε α := (x.on s).1.outcome

/-- The store after a step. -/
def after (x : LoggedT (StateM σ) ε α) (s : σ) : σ := (x.on s).2

/-- The step leaves every store as it is. -/
def Keeps (x : LoggedT (StateM σ) ε α) : Prop := ∀ s, x.after s = s

section Steps

variable {x : LoggedT (StateM σ) ε α} {f : α → LoggedT (StateM σ) ε β} {s : σ}

theorem on_bind_error {e : ε} (h : x.outcome s = .error e) :
    (x >>= f).on s = (⟨(x.on s).1.events, .error e⟩, x.after s) := by
  have hx : (show StateM σ (Logged ε α) from x) s = (⟨(x.on s).1.events, .error e⟩, x.after s) := by
    rw [← h]
    rfl
  simp only [bind, on]
  unfold StateT.bind
  rw [hx]
  rfl

theorem on_bind_ok {a : α} (h : x.outcome s = .ok a) :
    (x >>= f).on s =
      (⟨(x.on s).1.events ++ ((f a).on (x.after s)).1.events, (f a).outcome (x.after s)⟩,
        (f a).after (x.after s)) := by
  have hx : (show StateM σ (Logged ε α) from x) s = (⟨(x.on s).1.events, .ok a⟩, x.after s) := by
    rw [← h]
    rfl
  simp only [bind, on]
  unfold StateT.bind
  rw [hx]
  rfl

theorem bind_assoc {γ : Type} (x : LoggedT (StateM σ) ε α) (f : α → LoggedT (StateM σ) ε β)
    (h : β → LoggedT (StateM σ) ε γ) : x >>= f >>= h = x >>= fun a => f a >>= h := by
  refine funext fun s => ?_
  show (x >>= f >>= h).on s = (x >>= fun a => f a >>= h).on s
  -- split at the first step that fails: on both sides nothing runs behind it
  cases hx : x.outcome s with
  | error e =>
    have hfirst := on_bind_error (f := f) hx
    have houtcome : (x >>= f).outcome s = .error e := by rw [outcome, hfirst]
    have hafter : (x >>= f).after s = x.after s := by rw [after, hfirst]
    rw [on_bind_error houtcome, hfirst, hafter, on_bind_error hx]
  | ok a =>
    have hfirst := on_bind_ok (f := f) hx
    have hafter : (x >>= f).after s = (f a).after (x.after s) := by rw [after, hfirst]
    rw [on_bind_ok hx]
    cases hf : (f a).outcome (x.after s) with
    | error e =>
      have houtcome : (x >>= f).outcome s = .error e := by rw [outcome, hfirst, hf]
      have hrest := on_bind_error (f := h) hf
      have hrestOutcome : (f a >>= h).outcome (x.after s) = .error e := by rw [outcome, hrest]
      have hrestAfter : (f a >>= h).after (x.after s) = (f a).after (x.after s) := by
        rw [after, hrest]
      rw [on_bind_error houtcome, hfirst, hafter, hrestOutcome, hrestAfter, hrest]
    | ok b =>
      have houtcome : (x >>= f).outcome s = .ok b := by rw [outcome, hfirst, hf]
      have hrest := on_bind_ok (f := h) hf
      have hrestOutcome : (f a >>= h).outcome (x.after s) =
          (h b).outcome ((f a).after (x.after s)) := by rw [outcome, hrest]
      have hrestAfter : (f a >>= h).after (x.after s) =
          (h b).after ((f a).after (x.after s)) := by rw [after, hrest]
      rw [on_bind_ok houtcome, hfirst, hafter, hrestOutcome, hrestAfter, hrest, List.append_assoc]

theorem fail_bind (e : ε) (f : α → LoggedT (StateM σ) ε β) :
    (fail e : LoggedT (StateM σ) ε α) >>= f = fail e := rfl

theorem pure_bind (a : α) (f : α → LoggedT (StateM σ) ε β) :
    (pure a : LoggedT (StateM σ) ε α) >>= f = f a := rfl

/-- The second step follows only a success. -/
theorem outcome_bind (hx : x.Keeps) :
    (x >>= f).outcome s = x.outcome s >>= fun a => (f a).outcome s := by
  cases h : x.outcome s with
  | error e =>
    rw [outcome, on_bind_error h]
    rfl
  | ok a =>
    rw [outcome, on_bind_ok h, hx s]
    rfl

theorem outcome_bind_eq_ok_iff (hx : x.Keeps) {b : β} :
    (x >>= f).outcome s = .ok b ↔ ∃ a, x.outcome s = .ok a ∧ (f a).outcome s = .ok b := by
  rw [outcome_bind hx, except_bind_eq_ok_iff]

/-- What stands after two steps, the first of which keeps the store. -/
theorem after_bind (hx : x.Keeps) :
    (x >>= f).after s =
      match x.outcome s with
      | .error _ => s
      | .ok a => (f a).after s := by
  cases h : x.outcome s with
  | error e => rw [after, on_bind_error h, hx s]
  | ok a => rw [after, on_bind_ok h, hx s]

theorem Keeps.bind (hx : x.Keeps) (hf : ∀ a, (f a).Keeps) : (x >>= f).Keeps := by
  intro s
  rw [after_bind hx]
  cases x.outcome s with
  | error e => rfl
  | ok a => exact hf a s

end Steps

theorem keeps_ofLogged (l : Logged ε α) : (ofLogged l : LoggedT (StateM σ) ε α).Keeps :=
  fun _ => rfl

theorem keeps_pure (a : α) : (pure a : LoggedT (StateM σ) ε α).Keeps := fun _ => rfl

theorem Keeps.mapError {x : LoggedT (StateM σ) δ α} (hx : x.Keeps) (f : δ → ε) :
    (mapError f x).Keeps := hx

theorem keeps_lift {x : StateM σ α} (hx : ∀ s, (x s).2 = s) :
    (lift x : LoggedT (StateM σ) ε α).Keeps := hx

theorem ofExcept_on_error {f : δ → ε} {x : StateM σ (Except δ α)} {s s' : σ} {e : δ}
    (h : x s = (.error e, s')) : (ofExcept f x).on s = (⟨[], .error (f e)⟩, s') := by
  simp only [on, ofExcept, bind]
  unfold StateT.bind
  rw [h]
  rfl

theorem ofExcept_on_ok {f : δ → ε} {x : StateM σ (Except δ α)} {s s' : σ} {a : α}
    (h : x s = (.ok a, s')) : (ofExcept f x).on s = (⟨[], .ok a⟩, s') := by
  simp only [on, ofExcept, bind]
  unfold StateT.bind
  rw [h]
  rfl

theorem keeps_ofExcept {f : δ → ε} {x : StateM σ (Except δ α)} (hx : ∀ s, (x s).2 = s) :
    (ofExcept f x).Keeps := by
  intro s
  cases h : (x s).1 with
  | error e => rw [after, ofExcept_on_error (Prod.ext h (hx s))]
  | ok a => rw [after, ofExcept_on_ok (Prod.ext h (hx s))]

theorem outcome_ofLogged (l : Logged ε α) (s : σ) :
    (ofLogged l : LoggedT (StateM σ) ε α).outcome s = l.outcome := rfl

theorem outcome_pure (a : α) (s : σ) : (pure a : LoggedT (StateM σ) ε α).outcome s = .ok a := rfl

theorem outcome_lift (x : StateM σ α) (s : σ) :
    (lift x : LoggedT (StateM σ) ε α).outcome s = .ok (x s).1 := rfl

/-- A report does not change what comes of the next step. -/
theorem outcome_report_bind (e : Event) (f : Unit → LoggedT (StateM σ) ε α) (s : σ) :
    (report e >>= f).outcome s = (f ()).outcome s :=
  outcome_bind (keeps_ofLogged _)

theorem outcome_mapError_eq_ok_iff {f : δ → ε} {x : LoggedT (StateM σ) δ α} {s : σ} {a : α} :
    (mapError f x).outcome s = .ok a ↔ x.outcome s = .ok a := by
  show ((x.on s).1.mapError f).outcome = .ok a ↔ (x.on s).1.outcome = .ok a
  exact Logged.outcome_mapError_eq_ok_iff

theorem outcome_ofExcept_eq_ok_iff {f : δ → ε} {x : StateM σ (Except δ α)} {s : σ} {a : α} :
    (ofExcept f x).outcome s = .ok a ↔ (x s).1 = .ok a := by
  rw [outcome]
  cases h : (x s).1 with
  | error e =>
    rw [ofExcept_on_error (Prod.ext h rfl)]
    simp
  | ok b =>
    rw [ofExcept_on_ok (Prod.ext h rfl)]
    simp

end LoggedT

end KeyDispatch
