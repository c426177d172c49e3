import TestChain.Error

/-! Computations that keep their state when they fail.

Setting up a database and working at a bench are such computations. `outcome` runs one: it gives
the result, and the state as it is left. The lemmas say what each way of putting computations
together does to it, so that a computation can be followed step by step. -/
namespace TestChain

section
variable {ε ε' σ α β : Type} {s s' : σ}

/-- The result of a computation, and the state that it leaves. -/
def outcome (work : ExceptT ε (StateM σ) α) (s : σ) : Except ε α × σ := work.run.run s

theorem outcome_get : outcome (getThe σ : ExceptT ε (StateM σ) σ) s = (.ok s, s) := rfl

theorem outcome_bind (work : ExceptT ε (StateM σ) α) (next : α → ExceptT ε (StateM σ) β) :
    outcome (work >>= next) s =
      match outcome work s with
      | (.ok a, s') => outcome (next a) s'
      | (.error e, s') => (.error e, s') := by
  rw [outcome, ExceptT.run_bind, StateT.run_bind]
  show (match (outcome work s).1 with
    | .ok a => (next a).run
    | .error e => pure (.error e) : StateM σ (Except ε β)).run (outcome work s).2 = _
  cases h : outcome work s with
  | mk result s' => cases result <;> rfl

/-- After a step that gives a value. -/
theorem outcome_bind_ok {work : ExceptT ε (StateM σ) α} {next : α → ExceptT ε (StateM σ) β} {a : α}
    (h : outcome work s = (.ok a, s')) : outcome (work >>= next) s = outcome (next a) s' := by
  rw [outcome_bind, h]

/-- After a step that fails. -/
theorem outcome_bind_error {work : ExceptT ε (StateM σ) α} {next : α → ExceptT ε (StateM σ) β}
    {e : ε} (h : outcome work s = (.error e, s')) :
    outcome (work >>= next) s = (.error e, s') := by
  rw [outcome_bind, h]

/-- A value comes from a step that gives one, and from the rest after it. -/
theorem outcome_bind_eq_ok {work : ExceptT ε (StateM σ) α} {next : α → ExceptT ε (StateM σ) β}
    {b : β} : outcome (work >>= next) s = (.ok b, s') ↔
      ∃ a mid, outcome work s = (.ok a, mid) ∧ outcome (next a) mid = (.ok b, s') := by
  rw [outcome_bind]
  cases hwork : outcome work s with
  | mk result mid =>
    cases result with
    | error e => exact ⟨nofun, fun ⟨_, _, h, _⟩ => nomatch h⟩
    | ok a => exact ⟨fun h => ⟨a, mid, rfl, h⟩, fun ⟨_, _, h, hnext⟩ => by cases h; exact hnext⟩

/-- A step that does not use the state. -/
theorem outcome_lift (result : Except ε α) :
    outcome (liftM result : ExceptT ε (StateM σ) α) s = (result, s) := by
  cases result <;> rfl

/-- A computation whose failures are put otherwise. -/
theorem outcome_adapt (f : ε → ε') (work : ExceptT ε (StateM σ) α) :
    outcome (ExceptT.adapt f work) s = ((outcome work s).1.mapError f, (outcome work s).2) := rfl

theorem outcome_adapt_eq_ok {f : ε → ε'} {work : ExceptT ε (StateM σ) α} {a : α} :
    outcome (ExceptT.adapt f work) s = (.ok a, s') ↔ outcome work s = (.ok a, s') := by
  rw [outcome_adapt]
  cases outcome work s with
  | mk result after =>
    cases result with
    | error e => exact ⟨nofun, nofun⟩
    | ok b => exact ⟨fun h => by cases h; rfl, fun h => by cases h; rfl⟩

end

theorem orFail_eq_ok {α : Type} {result : Except ChainError α} {a : α} :
    orFail result = .ok a ↔ result = .ok a := by
  cases result with
  | error cause => exact ⟨nofun, nofun⟩
  | ok b => exact ⟨fun h => by cases h; rfl, fun h => by cases h; rfl⟩

theorem orFail_eq_error {α : Type} {result : Except ChainError α} {failure : Failure} :
    orFail result = .error failure ↔ ∃ cause, result = .error cause ∧ failure = .error cause := by
  cases result with
  | error cause =>
    constructor
    · intro h
      cases h
      exact ⟨cause, rfl, rfl⟩
    · rintro ⟨_, h, rfl⟩
      cases h
      rfl
  | ok b => exact ⟨nofun, nofun⟩

/-- What a step and the rest after it give is what the rest gives on the value of the step. -/
theorem except_bind_eq_ok {ε α β : Type} {x : Except ε α} {f : α → Except ε β} {b : β} :
    x >>= f = .ok b ↔ ∃ a, x = .ok a ∧ f a = .ok b := by
  cases x with
  | error e => exact ⟨nofun, fun ⟨_, h, _⟩ => nomatch h⟩
  | ok a => exact ⟨fun h => ⟨a, rfl, h⟩, fun ⟨_, h, hf⟩ => by cases h; exact hf⟩

/-- A step and the rest after it fail where the step does, or else where the rest does. -/
theorem except_bind_eq_error {ε α β : Type} {x : Except ε α} {f : α → Except ε β} {e : ε} :
    x >>= f = .error e ↔ x = .error e ∨ ∃ a, x = .ok a ∧ f a = .error e := by
  cases x with
  | error e' =>
    constructor
    · intro h
      cases h
      exact .inl rfl
    · rintro (h | ⟨_, h, _⟩)
      · cases h
        rfl
      · cases h
  | ok a =>
    constructor
    · intro h
      exact .inr ⟨a, rfl, h⟩
    · rintro (h | ⟨_, h, hf⟩)
      · cases h
      · cases h
        exact hf

theorem except_map_eq_ok {ε α β : Type} {x : Except ε α} {f : α → β} {b : β} :
    x.map f = .ok b ↔ ∃ a, x = .ok a ∧ f a = b := by
  cases x with
  | error e => exact ⟨nofun, fun ⟨_, h, _⟩ => nomatch h⟩
  | ok a => exact ⟨fun h => ⟨a, rfl, Except.ok.inj h⟩, fun ⟨_, h, hf⟩ => by cases h; cases hf; rfl⟩

theorem except_map_eq_error {ε α β : Type} {x : Except ε α} {f : α → β} {e : ε} :
    x.map f = .error e ↔ x = .error e := by
  cases x with
  | error e' => exact ⟨fun h => by cases h; rfl, fun h => by cases h; rfl⟩
  | ok a => exact ⟨nofun, nofun⟩

/-- A check and those after it pass when each does. -/
theorem except_check_eq_ok {ε : Type} {x rest : Except ε Unit} :
    (x >>= fun _ => rest) = .ok () ↔ x = .ok () ∧ rest = .ok () := by
  rw [except_bind_eq_ok]
  exact ⟨fun ⟨_, hx, hrest⟩ => ⟨hx, hrest⟩, fun ⟨hx, hrest⟩ => ⟨(), hx, hrest⟩⟩

end TestChain
